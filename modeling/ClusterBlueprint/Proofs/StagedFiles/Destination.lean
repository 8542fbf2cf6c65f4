import ClusterBlueprint.Proofs.StagedFiles.Cleaned

/-!
Destinations of staged files.

Whatever a source looks like, its staged name is one segment of a path: it has no slash, and the
underscore before the digest keeps it from being a dot or a parent.  So the destination lies in the
directory of staged files itself, wherever that is seen from.
-/

namespace ClusterBlueprint

/-! ## Digests -/

namespace Text

def IsHexDigit (c : Char) : Prop := '0' ≤ c ∧ c ≤ '9' ∨ 'a' ≤ c ∧ c ≤ 'f'

instance (c : Char) : Decidable (IsHexDigit c) := inferInstanceAs (Decidable (_ ∨ _))

theorem isHexDigit_digitChar {n : Nat} (h : n < 16) : IsHexDigit (Nat.digitChar n) := by
  have hall : ∀ m < 16, IsHexDigit (Nat.digitChar m) := by decide
  exact hall n h

theorem length_bytesOfNat (count n : Nat) : (Digest.bytesOfNat count n).length = count := by
  induction count with
  | zero => rfl
  | succ count ih => rw [Digest.bytesOfNat, List.length_cons, ih]

theorem length_sha256 (bytes : List UInt8) : (sha256 bytes).length = 32 := by
  rw [sha256, List.length_flatMap]
  simp only [length_bytesOfNat]
  rfl

theorem length_sha256Hex (s : String) : (sha256Hex s).length = 64 := by
  have hbyte (byte : UInt8) : (hexByte byte).length = 2 := rfl
  simp only [sha256Hex, List.length_flatMap, hbyte, List.map_const', List.sum_replicate_nat,
    length_sha256]

theorem isHexDigit_of_mem_sha256Hex {s : String} {c : Char} (h : c ∈ sha256Hex s) :
    IsHexDigit c := by
  obtain ⟨byte, -, hc⟩ := List.mem_flatMap.mp h
  have hbyte : byte.toNat < 256 := byte.toNat_lt
  simp only [hexByte, List.mem_cons, List.not_mem_nil, or_false] at hc
  rcases hc with rfl | rfl
  · exact isHexDigit_digitChar (by omega)
  · exact isHexDigit_digitChar (by omega)

end Text

namespace StagedFiles

/-! ## Names of staged files -/

/-- A base name has a slash only if it is the slash. -/
theorem baseName_cases (path : List Char) : baseName path = ['/'] ∨ '/' ∉ baseName path := by
  by_cases hempty : path.isEmpty
  · rw [baseName, if_pos hempty]
    exact .inr (by decide)
  · rw [baseName, if_neg hempty]
    by_cases hslashes : (path.reverse.dropWhile (· = '/')).reverse.isEmpty
    · exact .inl (if_pos hslashes)
    · refine .inr ?_
      rw [if_neg hslashes, List.mem_reverse]
      intro hmem
      simpa using List.all_eq_true.mp List.all_takeWhile '/' hmem

theorem notMem_stagedName (source : List Char) : '/' ∉ stagedName source := by
  by_cases hname : (baseName source = ['.'] || baseName source = ['.', '.']
      || baseName source = ['/']) = true
  · rw [stagedName, if_pos hname]
    decide
  · rw [stagedName, if_neg hname]
    rcases baseName_cases source with hslash | hnone
    · exact absurd (by simp [hslash]) hname
    · exact hnone

example : stagedName "a/..//".toList = fallbackName := by decide

/-- A file name that ends in an underscore and ten digits of a digest. -/
structure IsStagedName (file : String) : Prop where
  notMem : '/' ∉ file.toList
  ending : ∃ name digits : List Char, file.toList = name ++ '_' :: digits ∧ digits.length = 10
    ∧ ∀ digit ∈ digits, Text.IsHexDigit digit

def fileName (source : String) : String :=
  String.ofList (stagedName source.toList) ++ "_" ++ String.ofList ((Text.sha256Hex source).take 10)

theorem destination_eq (source : String) :
    destination source = directory ++ "/" ++ fileName source := by
  simp only [destination, fileName, String.append_assoc]

theorem isStagedName_fileName (source : String) : IsStagedName (fileName source) := by
  have hdigits : ∀ digit ∈ (Text.sha256Hex source).take 10, Text.IsHexDigit digit := by
    intro digit hdigit
    exact Text.isHexDigit_of_mem_sha256Hex (List.mem_of_mem_take hdigit)
  have htext : (fileName source).toList
      = stagedName source.toList ++ '_' :: (Text.sha256Hex source).take 10 := by
    simp [fileName]
  refine ⟨?_, _, _, htext, ?_, hdigits⟩
  · rw [htext]
    intro hmem
    rcases List.mem_append.mp hmem with hname | hend
    · exact notMem_stagedName source.toList hname
    · rcases List.mem_cons.mp hend with hmark | hdigit
      · exact absurd hmark (by decide)
      · exact absurd (hdigits '/' hdigit) (by decide)
  · rw [List.length_take, Text.length_sha256Hex]
    rfl

theorem IsStagedName.isName {file : String} (h : IsStagedName file) : IsName file.toList := by
  obtain ⟨hslash, name, digits, htext, -, -⟩ := h
  have hmark : '_' ∈ file.toList := by simp [htext]
  exact .of_mem hslash hmark (by decide)

/-! ## A name in a directory -/

section Name

variable {rooted : Bool} {path name : List Char}

theorem kept_append_name (rooted : Bool) (path : List Char) (h : IsName name) :
    kept rooted (path ++ '/' :: name) = kept rooted path ++ [name] := by
  rw [kept_append_slash, Text.splitChars_of_notMem h.notMem]
  exact pushSegment_of_isName h

theorem spelled_concat {segments : List (List Char)} (h : IsReduced rooted segments)
    (hne : segments ≠ []) (hname : IsName name) :
    spelled rooted (segments ++ [name]) = spelled rooted segments ++ '/' :: name := by
  cases rooted with
  | true =>
    rw [spelled, if_pos rfl, Text.intercalate_concat hne]
    rfl
  | false =>
    have hconcat : segments ++ [name] ≠ [] := List.concat_ne_nil name segments
    rw [spelled_of_ne_nil (isReduced_concat h hname) hconcat, spelled_of_ne_nil h hne,
      Text.intercalate_concat hne]

/-- Cleaning the path of an entry cleans that of its directory. -/
theorem cleanPath_append_name (h : IsName name) (hne : kept (isRooted path) path ≠ []) :
    cleanPath (path ++ '/' :: name) = cleanPath path ++ '/' :: name := by
  have hrooted : isRooted (path ++ '/' :: name) = isRooted path := by
    cases path with
    | nil => exact absurd rfl hne
    | cons c path => rfl
  rw [cleanPath_eq, cleanPath_eq, hrooted, kept_append_name _ path h,
    spelled_concat (isReduced_kept _ path) hne h]

end Name

/-! ## The directory of staged files -/

/-- Wherever the directory of staged files is seen from, cleaning keeps it in front of its files. -/
theorem clean_directory_entry (base : String) {file : String} (h : IsName file.toList) :
    clean (base ++ directory ++ "/" ++ file) = clean (base ++ directory) ++ "/" ++ file := by
  -- The directory itself ends in a name, so something is left of it in front of the file.
  have hletter : 's' ∈ "staged".toList := by decide
  have hstaged : IsName "staged".toList := .of_mem (by decide) hletter (by decide)
  have hdirectory : (base ++ directory).toList
      = (base ++ "../.ghpc").toList ++ '/' :: "staged".toList := by
    rw [String.toList_append, String.toList_append, List.append_assoc]
    rfl
  have hkept (rooted : Bool) : kept rooted (base ++ directory).toList ≠ [] := by
    rw [hdirectory, kept_append_name rooted _ hstaged]
    simp
  rw [← String.toList_inj, toList_clean, String.toList_append, String.toList_append,
    List.append_assoc]
  exact (cleanPath_append_name h (hkept _)).trans (by simp [toList_clean])

theorem clean_directory : clean directory = directory := rfl

/-- What stands before a relative source when it is resolved. -/
def lead (base : String) : String := if base.isEmpty then "" else base ++ "/"

theorem resolve_of_relative (base : String) {source : String} (h : isRooted source.toList = false) :
    resolve base source = clean (lead base ++ source) := by
  have hrelative : ¬ source.toList.head? = some '/' := by simpa [isRooted] using h
  by_cases hbase : base.isEmpty = true
  · simp [resolve, lead, hbase]
  · simp [resolve, lead, hbase, hrelative]

theorem isRooted_destination (source : String) : isRooted (destination source).toList = false := by
  rw [destination_eq, String.toList_append, String.toList_append, List.append_assoc]
  rfl

/-- The destination of any source is a file of the directory of staged files: the name of the file
is one segment of the path, there is nothing in the path to clean, and seen from any other directory
it still is that file of that directory. -/
theorem destination_stays_inside (source : String) :
    ∃ file, IsStagedName file ∧ destination source = directory ++ "/" ++ file
      ∧ clean (destination source) = destination source
      ∧ ∀ base, resolve base (destination source) = resolve base directory ++ "/" ++ file := by
  have hfile := isStagedName_fileName source
  have hentry (base : String) :
      clean (base ++ destination source) = clean (base ++ directory) ++ "/" ++ fileName source := by
    rw [destination_eq, ← String.append_assoc, ← String.append_assoc]
    exact clean_directory_entry base hfile.isName
  refine ⟨fileName source, hfile, destination_eq source, ?_, ?_⟩
  · have hself := hentry ""
    rwa [String.empty_append, String.empty_append, clean_directory, ← destination_eq] at hself
  · intro base
    rw [resolve_of_relative base (isRooted_destination source), resolve_of_relative base rfl,
      hentry]

end StagedFiles

end ClusterBlueprint
