import ClusterBlueprint.Proofs.Text.Separation
import ClusterBlueprint.StagedFiles

/-!
Paths in normal form.

Cleaning reads the segments of a path onto a stack, which at every step holds parents and then
names.  The stack stands for what was read: put on top of any other stack, it leads where the
segments lead.  So a path is cleaned to a normal form, and inside a directory a relative path may be
replaced by its normal form.
-/

namespace ClusterBlueprint

namespace StagedFiles

variable {rooted : Bool} {segments stack : List (List Char)} {segment name : List Char}

/-! ## Segments -/

def parent : List Char := ['.', '.']

/-- Whether a segment leads nowhere else: it is empty or a dot. -/
def IsBlank (segment : List Char) : Prop := segment = [] ∨ segment = ['.']

/-- Whether a segment leads to an entry of a directory. -/
structure IsName (segment : List Char) : Prop where
  notMem : '/' ∉ segment
  not_isBlank : ¬ IsBlank segment
  ne_parent : segment ≠ parent

/-- Whether segments are parents and then names.  Below the root there are no parents. -/
def IsReduced (rooted : Bool) (segments : List (List Char)) : Prop :=
  ∃ count names, segments = List.replicate count parent ++ names
    ∧ (rooted = true → count = 0) ∧ ∀ name ∈ names, IsName name

theorem segment_cases (h : '/' ∉ segment) :
    IsBlank segment ∨ segment = parent ∨ IsName segment := by
  by_cases hblank : IsBlank segment
  · exact .inl hblank
  · by_cases hparent : segment = parent
    · exact .inr (.inl hparent)
    · exact .inr (.inr ⟨h, hblank, hparent⟩)

/-- A segment with another character than dots is no blank and no parent. -/
theorem IsName.of_mem (h : '/' ∉ segment) {c : Char} (hc : c ∈ segment) (hdot : c ≠ '.') :
    IsName segment := by
  refine ⟨h, ?_, ?_⟩
  · intro hblank
    rcases hblank with rfl | rfl
    · exact absurd hc List.not_mem_nil
    · exact hdot (List.mem_singleton.mp hc)
  · intro hparent
    rw [hparent] at hc
    simp [parent, hdot] at hc

theorem isReduced_nil : IsReduced rooted [] := ⟨0, [], rfl, fun _ => rfl, nofun⟩

theorem isReduced_concat (h : IsReduced rooted segments) (hname : IsName name) :
    IsReduced rooted (segments ++ [name]) := by
  obtain ⟨count, names, rfl, hcount, hnames⟩ := h
  refine ⟨count, names ++ [name], List.append_assoc .., hcount, ?_⟩
  intro other hother
  rcases List.mem_append.mp hother with hmem | hmem
  · exact hnames other hmem
  · rwa [List.mem_singleton.mp hmem]

/-- Segments are parents only, or they end in a name. -/
theorem IsReduced.cases (h : IsReduced rooted segments) :
    (∃ count, segments = List.replicate count parent ∧ (rooted = true → count = 0))
      ∨ ∃ front name, segments = front ++ [name] ∧ IsReduced rooted front ∧ IsName name := by
  obtain ⟨count, names, rfl, hcount, hnames⟩ := h
  rcases List.eq_nil_or_concat names with rfl | ⟨front, name, rfl⟩
  · exact .inl ⟨count, List.append_nil _, hcount⟩
  · refine .inr ⟨List.replicate count parent ++ front, name, by simp, ?_, hnames name (by simp)⟩
    exact ⟨count, front, rfl, hcount, fun other hother => hnames other (by simp [hother])⟩

theorem IsReduced.mem_cases (h : IsReduced rooted segments) (hmem : segment ∈ segments) :
    segment = parent ∨ IsName segment := by
  obtain ⟨count, names, rfl, -, hnames⟩ := h
  rcases List.mem_append.mp hmem with hparent | hname
  · exact .inl (List.eq_of_mem_replicate hparent)
  · exact .inr (hnames segment hname)

theorem IsReduced.notMem (h : IsReduced rooted segments) (hmem : segment ∈ segments) :
    '/' ∉ segment := by
  rcases h.mem_cases hmem with rfl | hname
  · decide
  · exact hname.notMem

theorem IsReduced.not_isBlank (h : IsReduced rooted segments) (hmem : segment ∈ segments) :
    ¬ IsBlank segment := by
  rcases h.mem_cases hmem with rfl | hname
  · simp [IsBlank, parent]
  · exact hname.not_isBlank

/-! ## The stack -/

theorem pushSegment_of_isBlank (h : IsBlank segment) :
    pushSegment rooted stack segment = stack := by
  rcases h with rfl | rfl <;> rfl

theorem pushSegment_of_isName (h : IsName segment) :
    pushSegment rooted stack segment = stack ++ [segment] := by
  have hblank : ¬ (segment = [] ∨ segment = ['.']) := h.not_isBlank
  have hparent : segment ≠ ['.', '.'] := h.ne_parent
  rw [pushSegment, if_neg (by simpa using hblank), if_neg hparent]

/-- A parent takes back the name before it. -/
theorem pushSegment_parent_concat (h : IsName name) :
    pushSegment rooted (stack ++ [name]) parent = stack := by
  have hparent : name ≠ ['.', '.'] := h.ne_parent
  simp [pushSegment, parent, hparent]

theorem pushSegment_parent_replicate (count : Nat) :
    pushSegment false (List.replicate count parent) parent
      = List.replicate count parent ++ [parent] := by
  cases count with
  | zero => rfl
  | succ count => simp [pushSegment, parent, List.getLast?_replicate]

theorem isReduced_pushSegment (h : IsReduced rooted stack) (hsegment : '/' ∉ segment) :
    IsReduced rooted (pushSegment rooted stack segment) := by
  rcases segment_cases hsegment with hblank | rfl | hname
  · rwa [pushSegment_of_isBlank hblank]
  · rcases h.cases with ⟨count, rfl, hcount⟩ | ⟨front, name, rfl, hfront, hname⟩
    · cases rooted with
      | true =>
        rw [hcount rfl]
        exact isReduced_nil
      | false =>
        rw [pushSegment_parent_replicate, ← List.replicate_succ']
        exact ⟨count + 1, [], (List.append_nil _).symm, nofun, nofun⟩
    · rwa [pushSegment_parent_concat hname]
  · rw [pushSegment_of_isName hname]
    exact isReduced_concat h hname

theorem isReduced_foldl (h : IsReduced rooted stack) (hsegments : ∀ s ∈ segments, '/' ∉ s) :
    IsReduced rooted (segments.foldl (pushSegment rooted) stack) := by
  induction segments generalizing stack with
  | nil => exact h
  | cons segment segments ih =>
    obtain ⟨hsegment, hrest⟩ := List.forall_mem_cons.mp hsegments
    exact ih (isReduced_pushSegment h hsegment) hrest

theorem foldl_names {names : List (List Char)} (h : ∀ name ∈ names, IsName name) :
    names.foldl (pushSegment rooted) stack = stack ++ names := by
  induction names generalizing stack with
  | nil => exact (List.append_nil stack).symm
  | cons name names ih =>
    obtain ⟨hname, hrest⟩ := List.forall_mem_cons.mp h
    rw [List.foldl_cons, pushSegment_of_isName hname, ih hrest, List.append_assoc]
    rfl

theorem foldl_parents (count : Nat) :
    (List.replicate count parent).foldl (pushSegment false) [] = List.replicate count parent := by
  induction count with
  | zero => rfl
  | succ count ih =>
    rw [List.replicate_succ', List.foldl_append, ih]
    exact pushSegment_parent_replicate count

/-- Nothing in reduced segments takes back anything. -/
theorem IsReduced.foldl_eq (h : IsReduced rooted segments) :
    segments.foldl (pushSegment rooted) [] = segments := by
  obtain ⟨count, names, rfl, hcount, hnames⟩ := h
  cases rooted with
  | true =>
    rw [hcount rfl]
    exact foldl_names hnames
  | false => rw [List.foldl_append, foldl_parents, foldl_names hnames]

/-- On top of any stack, a segment may as well be read onto the reduced segments before it. -/
theorem foldl_pushSegment (h : IsReduced false segments) (hsegment : '/' ∉ segment) :
    (pushSegment false segments segment).foldl (pushSegment rooted) stack
      = pushSegment rooted (segments.foldl (pushSegment rooted) stack) segment := by
  rcases segment_cases hsegment with hblank | rfl | hname
  · rw [pushSegment_of_isBlank hblank, pushSegment_of_isBlank hblank]
  · rcases h.cases with ⟨count, rfl, -⟩ | ⟨front, name, rfl, -, hname⟩
    · rw [pushSegment_parent_replicate, List.foldl_append]
      rfl
    · -- The parent takes back the name whether it was read onto the stack or onto the segments.
      have hfront : (front ++ [name]).foldl (pushSegment rooted) stack
          = front.foldl (pushSegment rooted) stack ++ [name] := by
        rw [List.foldl_append]
        exact pushSegment_of_isName hname
      rw [pushSegment_parent_concat hname, hfront, pushSegment_parent_concat hname]
  · rw [pushSegment_of_isName hname, List.foldl_append]
    rfl

theorem foldl_foldl (h : IsReduced false segments) {rest : List (List Char)}
    (hrest : ∀ segment ∈ rest, '/' ∉ segment) :
    (rest.foldl (pushSegment false) segments).foldl (pushSegment rooted) stack
      = rest.foldl (pushSegment rooted) (segments.foldl (pushSegment rooted) stack) := by
  induction rest generalizing segments with
  | nil => rfl
  | cons segment rest ih =>
    obtain ⟨hsegment, hmore⟩ := List.forall_mem_cons.mp hrest
    rw [List.foldl_cons, ih (isReduced_pushSegment h hsegment) hmore, foldl_pushSegment h hsegment,
      List.foldl_cons]

/-! ## Paths -/

def isRooted (path : List Char) : Bool := path.head? = some '/'

def kept (rooted : Bool) (path : List Char) : List (List Char) :=
  (Text.splitChars '/' path).foldl (pushSegment rooted) []

def spelled (rooted : Bool) (segments : List (List Char)) : List Char :=
  let joined := ['/'].intercalate segments
  if rooted then '/' :: joined else if joined.isEmpty then ['.'] else joined

theorem cleanPath_eq (path : List Char) :
    cleanPath path = spelled (isRooted path) (kept (isRooted path) path) :=
  ite_congr decide_eq_true_eq.symm (fun _ => rfl) fun _ => rfl

/-- The paths in normal form: a dot, the root, names below the root, and parents followed by
names. -/
inductive IsNormal : List Char → Prop
  | here : IsNormal ['.']
  | root : IsNormal ['/']
  | rooted {path : List Char} (h : IsReduced true (Text.splitChars '/' path)) :
      IsNormal ('/' :: path)
  | relative {path : List Char} (h : IsReduced false (Text.splitChars '/' path)) : IsNormal path

variable {path : List Char}

theorem isReduced_kept (rooted : Bool) (path : List Char) : IsReduced rooted (kept rooted path) :=
  isReduced_foldl isReduced_nil fun _ => Text.notMem_of_mem_splitChars

theorem splitChars_joined (h : IsReduced rooted segments) (hne : segments ≠ []) :
    Text.splitChars '/' (['/'].intercalate segments) = segments :=
  Text.splitChars_intercalate hne fun _ => h.notMem

theorem ne_nil_of_isReduced (h : IsReduced rooted (Text.splitChars '/' path)) : path ≠ [] := by
  intro hpath
  rw [hpath] at h
  exact h.not_isBlank List.mem_cons_self (.inl rfl)

theorem isRooted_of_isReduced (h : IsReduced rooted (Text.splitChars '/' path)) :
    isRooted path = false := by
  cases path with
  | nil => rfl
  | cons c path =>
    by_cases hc : c = '/'
    · rw [hc, Text.splitChars_mark] at h
      exact absurd (.inl rfl) (h.not_isBlank List.mem_cons_self)
    · simpa [isRooted] using hc

theorem spelled_of_ne_nil (h : IsReduced false segments) (hne : segments ≠ []) :
    spelled false segments = ['/'].intercalate segments := by
  have hjoined : ['/'].intercalate segments ≠ [] :=
    ne_nil_of_isReduced ((splitChars_joined h hne).symm ▸ h)
  rw [spelled, if_neg Bool.false_ne_true, if_neg (by simpa using hjoined)]

theorem isNormal_spelled (h : IsReduced rooted segments) : IsNormal (spelled rooted segments) := by
  by_cases hne : segments = []
  · rw [hne]
    cases rooted with
    | true => exact .root
    | false => exact .here
  · have hsplit := (splitChars_joined h hne).symm ▸ h
    cases rooted with
    | true => exact .rooted hsplit
    | false =>
      rw [spelled_of_ne_nil h hne]
      exact .relative hsplit

theorem isNormal_cleanPath (path : List Char) : IsNormal (cleanPath path) := by
  rw [cleanPath_eq]
  exact isNormal_spelled (isReduced_kept _ path)

example : cleanPath "a/../../b/./".toList = "../b".toList := by decide

theorem cleanPath_of_isNormal (h : IsNormal path) : cleanPath path = path := by
  cases h with
  | here => rfl
  | root => rfl
  | @rooted path h =>
    have hkept : kept true ('/' :: path) = Text.splitChars '/' path := by
      rw [kept, Text.splitChars_mark]
      exact h.foldl_eq
    calc
      cleanPath ('/' :: path) = spelled true (kept true ('/' :: path)) := cleanPath_eq _
      _ = '/' :: ['/'].intercalate (Text.splitChars '/' path) := by rw [hkept]; rfl
      _ = '/' :: path := by rw [Text.intercalate_splitChars]
  | relative h =>
    have hkept : kept false path = Text.splitChars '/' path := h.foldl_eq
    rw [cleanPath_eq, isRooted_of_isReduced h, hkept, spelled, Text.intercalate_splitChars,
      if_neg Bool.false_ne_true, if_neg (by simpa using ne_nil_of_isReduced h)]

/-- The paths in normal form are those that cleaning leaves as they are. -/
theorem cleanPath_eq_self_iff : cleanPath path = path ↔ IsNormal path :=
  ⟨fun h => h ▸ isNormal_cleanPath path, cleanPath_of_isNormal⟩

theorem isRooted_spelled (h : IsReduced rooted segments) :
    isRooted (spelled rooted segments) = rooted := by
  cases rooted with
  | true => rfl
  | false =>
    by_cases hne : segments = []
    · rw [hne]
      rfl
    · rw [spelled_of_ne_nil h hne]
      exact isRooted_of_isReduced ((splitChars_joined h hne).symm ▸ h)

theorem isRooted_cleanPath (path : List Char) : isRooted (cleanPath path) = isRooted path := by
  rw [cleanPath_eq, isRooted_spelled (isReduced_kept _ path)]

/-! ## Paths in a directory -/

theorem isRooted_append_slash (directory path other : List Char) :
    isRooted (directory ++ '/' :: path) = isRooted (directory ++ '/' :: other) := by
  cases directory <;> rfl

theorem kept_append_slash (rooted : Bool) (directory path : List Char) :
    kept rooted (directory ++ '/' :: path)
      = (Text.splitChars '/' path).foldl (pushSegment rooted) (kept rooted directory) := by
  rw [kept, Text.splitChars_append_mark, List.foldl_append, kept]

theorem foldl_kept (path : List Char) :
    (kept false path).foldl (pushSegment rooted) stack
      = (Text.splitChars '/' path).foldl (pushSegment rooted) stack :=
  foldl_foldl isReduced_nil fun _ => Text.notMem_of_mem_splitChars

theorem foldl_spelled (h : IsReduced false segments) :
    (Text.splitChars '/' (spelled false segments)).foldl (pushSegment rooted) stack
      = segments.foldl (pushSegment rooted) stack := by
  by_cases hne : segments = []
  · rw [hne]
    rfl
  · rw [spelled_of_ne_nil h hne, splitChars_joined h hne]

theorem cleanPath_append_cleanPath (directory : List Char) (h : isRooted path = false) :
    cleanPath (directory ++ '/' :: path) = cleanPath (directory ++ '/' :: cleanPath path) := by
  have hclean : cleanPath path = spelled false (kept false path) := by rw [cleanPath_eq, h]
  rw [cleanPath_eq, cleanPath_eq, isRooted_append_slash directory (cleanPath path) path,
    kept_append_slash, kept_append_slash, hclean, foldl_spelled (isReduced_kept false path),
    foldl_kept]

theorem toList_clean (path : String) : (clean path).toList = cleanPath path.toList :=
  String.toList_ofList

theorem clean_append_clean (directory : String) {path : String}
    (h : isRooted path.toList = false) :
    clean (directory ++ "/" ++ path) = clean (directory ++ "/" ++ clean path) := by
  have hjoin (source : String) :
      (directory ++ "/" ++ source).toList = directory.toList ++ '/' :: source.toList := by
    rw [String.toList_append, String.toList_append, List.append_assoc]
    rfl
  rw [clean, clean, hjoin, hjoin, toList_clean, cleanPath_append_cleanPath _ h]

theorem isRooted_eq_of_clean_eq {a b : String} (h : clean a = clean b) :
    isRooted a.toList = isRooted b.toList :=
  calc
    isRooted a.toList = isRooted (clean a).toList := by rw [toList_clean, isRooted_cleanPath]
    _ = isRooted (clean b).toList := by rw [h]
    _ = isRooted b.toList := by rw [toList_clean, isRooted_cleanPath]

/-- Sources with one normal form resolve to one path. -/
theorem resolve_eq_of_clean_eq (directory : String) {a b : String} (h : clean a = clean b) :
    resolve directory a = resolve directory b := by
  have hresolve (source : String) : resolve directory source
      = if isRooted source.toList || directory.isEmpty then clean source
        else clean (directory ++ "/" ++ source) := rfl
  rw [hresolve, hresolve, ← isRooted_eq_of_clean_eq h]
  by_cases habsolute : (isRooted a.toList || directory.isEmpty) = true
  · rw [if_pos habsolute, if_pos habsolute, h]
  · rw [if_neg habsolute, if_neg habsolute]
    obtain ⟨ha, -⟩ := Bool.or_eq_false_iff.mp (Bool.eq_false_iff.mpr habsolute)
    have hb : isRooted b.toList = false := isRooted_eq_of_clean_eq h ▸ ha
    rw [clean_append_clean directory ha, clean_append_clean directory hb, h]

/-- Cleaning brings every path to its normal form, and leaves a path alone exactly if it is in
normal form.  Inside any directory a relative path leads where its normal form leads, and sources
with one normal form are recorded under one path. -/
theorem clean_normalizes (path : String) :
    clean (clean path) = clean path
      ∧ IsNormal (clean path).toList
      ∧ (clean path = path ↔ IsNormal path.toList)
      ∧ (isRooted path.toList = false → ∀ directory : String,
          clean (directory ++ "/" ++ path) = clean (directory ++ "/" ++ clean path))
      ∧ ∀ other : String, clean path = clean other →
          ∀ (staged : StagedFiles) (directory destination : String),
            staged.record directory path destination
              = staged.record directory other destination := by
  have hfixed (source : String) : clean source = source ↔ IsNormal source.toList := by
    rw [← cleanPath_eq_self_iff, ← toList_clean, String.toList_inj]
  have hnormal : IsNormal (clean path).toList := by
    rw [toList_clean]
    exact isNormal_cleanPath path.toList
  refine ⟨(hfixed _).mpr hnormal, hnormal, hfixed path, ?_, ?_⟩
  · intro hrelative directory
    exact clean_append_clean directory hrelative
  · intro other hother staged directory destination
    rw [record, record, resolve_eq_of_clean_eq directory hother]

/-- Two spellings of a source outside the directory of its blueprint. -/
theorem clean_normalizes_of_parents :
    let path := "./one/../../two//x"
    let other := ".././two/x/"
    isRooted path.toList = false
      ∧ clean path = clean other
      ∧ clean ("../zebra" ++ "/" ++ path) = clean ("../zebra" ++ "/" ++ clean path)
      ∧ record ∅ "../zebra" path "x" = record ∅ "../zebra" other "x" := by
  obtain ⟨-, -, -, hcomposes, hrecords⟩ := clean_normalizes "./one/../../two//x"
  exact ⟨rfl, rfl, hcomposes rfl "../zebra", hrecords ".././two/x/" rfl ∅ "../zebra" "x"⟩

end StagedFiles

end ClusterBlueprint
