import ClusterBlueprint.Literal
import ClusterBlueprint.Proofs.Checked
import ClusterBlueprint.Proofs.Text.Separation

/-!
Escaped texts, read back.

Reading undoes the backslashes that escaping adds.  Two texts are changed on the way.  One that
already stands for the same text in double parentheses loses its backslash, and a line loses the
carriage return at its end.
-/

namespace ClusterBlueprint.Literal

open Text

variable {cs before after : List Char}

/-! ## Texts between marks -/

theorem within?_append (opening inner closing : List Char) :
    within? opening closing (opening ++ inner ++ closing) = some inner := by
  have hopening : opening.isPrefixOf (opening ++ inner ++ closing) := by
    rw [List.isPrefixOf_iff_prefix, List.append_assoc]
    exact List.prefix_append _ _
  have hclosing : closing.isSuffixOf (opening ++ inner ++ closing) :=
    List.isSuffixOf_iff_suffix.mpr (List.suffix_append _ _)
  have hlength : opening.length + closing.length ≤ (opening ++ inner ++ closing).length := by
    simp only [List.length_append]
    omega
  rw [within?, if_pos (by simp only [hopening, hclosing, hlength, decide_true, Bool.and_self])]
  have hcount : (opening ++ inner ++ closing).length - opening.length - closing.length
      = inner.length := by
    simp only [List.length_append]
    omega
  rw [hcount, List.append_assoc, List.drop_left, List.take_left]

theorem isSome_within? {opening closing : List Char} :
    (within? opening closing cs).isSome ↔ ∃ inner, cs = opening ++ inner ++ closing := by
  constructor
  · intro h
    unfold within? at h
    split at h
    · next hmarks =>
      simp only [Bool.and_eq_true, decide_eq_true_eq, List.isPrefixOf_iff_prefix,
        List.isSuffixOf_iff_suffix] at hmarks
      obtain ⟨⟨hlength, rest, rfl⟩, start, hstart⟩ := hmarks
      -- The marks do not overlap, so the closing one stands in what follows the opening one.
      have hle : closing.length ≤ rest.length := by
        rw [List.length_append] at hlength
        omega
      obtain ⟨inner, rfl⟩ := List.suffix_of_suffix_length_le ⟨start, hstart⟩
        (List.suffix_append opening rest) hle
      exact ⟨inner, (List.append_assoc _ _ _).symm⟩
    · exact absurd h Bool.false_ne_true
  · rintro ⟨inner, rfl⟩
    rw [within?_append]
    rfl

/-! ## Escaped characters -/

/-- How many backslashes stand at the end of the characters. -/
def trailing (cs : List Char) : Nat := (cs.reverse.takeWhile (· = '\\')).length

theorem trailing_concat_slash (cs : List Char) : trailing (cs ++ ['\\']) = trailing cs + 1 := by
  simp [trailing]

theorem trailing_concat {c : Char} (h : c ≠ '\\') (cs : List Char) : trailing (cs ++ [c]) = 0 := by
  simp [trailing, h]

theorem trailing_le (cs : List Char) : trailing cs ≤ cs.length := by
  have h := (List.takeWhile_sublist (l := cs.reverse) (· = '\\')).length_le
  rwa [List.length_reverse] at h

theorem trailing_append_replicate (cs : List Char) (n : Nat) :
    trailing (cs ++ List.replicate n '\\') = trailing cs + n := by
  induction n with
  | zero => rw [List.replicate_zero, List.append_nil, Nat.add_zero]
  | succ n ih =>
    rw [List.replicate_succ', ← List.append_assoc, trailing_concat_slash, ih, Nat.add_assoc]

theorem escapeOpenings_slash (n : Nat) (rest : List Char) :
    escapeOpenings n ('\\' :: rest) = '\\' :: escapeOpenings (n + 1) rest := by
  simp [escapeOpenings]

theorem escapeOpenings_opening (n : Nat) (rest : List Char) :
    escapeOpenings n ('$' :: '(' :: rest)
      = List.replicate (n + 1) '\\' ++ '$' :: '(' :: escapeOpenings 0 rest := by
  rw [escapeOpenings]

theorem escapeOpenings_other {c : Char} {rest : List Char} (hslash : c ≠ '\\')
    (hopening : ∀ more, c :: rest ≠ '$' :: '(' :: more) (n : Nat) :
    escapeOpenings n (c :: rest) = c :: escapeOpenings 0 rest := by
  rw [escapeOpenings]
  · intro more hc hrest
    exact hopening more (by rw [hc, hrest])
  · exact hslash

/-- A character that neither escapes nor is part of an opening. -/
def isOrdinary (c : Char) : Bool := c ≠ '\\' && c ≠ '$' && c ≠ '('

theorem escapeOpenings_ordinary {c : Char} (h : isOrdinary c) (n : Nat) (rest : List Char) :
    escapeOpenings n (c :: rest) = c :: escapeOpenings 0 rest := by
  simp only [isOrdinary, Bool.and_eq_true, decide_eq_true_eq] at h
  obtain ⟨⟨hslash, hdollar⟩, -⟩ := h
  exact escapeOpenings_other hslash (fun more heq => hdollar (List.cons.inj heq).1) n

/-- An ordinary character cuts the escaped characters in two. -/
theorem escapeOpenings_append_ordinary {c : Char} (h : isOrdinary c) (n : Nat)
    (xs ys : List Char) :
    escapeOpenings n (xs ++ c :: ys) = escapeOpenings n xs ++ c :: escapeOpenings 0 ys := by
  fun_induction escapeOpenings n xs with
  | case1 n => exact escapeOpenings_ordinary h n ys
  | case2 n rest ih =>
    rw [List.cons_append, List.cons_append, escapeOpenings_opening, ih, List.append_assoc,
      List.cons_append, List.cons_append]
  | case3 n rest ih => rw [List.cons_append, escapeOpenings_slash, ih, List.cons_append]
  | case4 n d rest hopening hslash ih =>
    rw [List.cons_append, escapeOpenings_other hslash, ih, List.cons_append]
    intro more heq
    obtain ⟨rfl, hrest⟩ := List.cons.inj heq
    cases rest with
    | nil =>
      obtain ⟨rfl, -⟩ := List.cons.inj hrest
      exact absurd h (by decide)
    | cons d rest =>
      obtain ⟨rfl, -⟩ := List.cons.inj hrest
      exact hopening rest rfl rfl

theorem getLast?_escapeOpenings (n : Nat) (cs : List Char) :
    (escapeOpenings n cs).getLast? = cs.getLast? := by
  fun_induction escapeOpenings n cs with
  | case1 => rfl
  | case2 n rest ih => simp [List.getLast?_append, List.getLast?_cons, ih]
  | case3 n rest ih => simp [List.getLast?_cons, ih]
  | case4 n d rest _ _ ih => simp [List.getLast?_cons, ih]

theorem exists_of_escapeOpenings_cons {c : Char} (hc : c ≠ '\\') {n : Nat} {more : List Char}
    (h : escapeOpenings n cs = c :: more) :
    ∃ rest, cs = c :: rest ∧ more = escapeOpenings 0 rest := by
  fun_cases escapeOpenings n cs with
  | case1 => exact absurd h (by simp [escapeOpenings])
  | case2 rest =>
    rw [escapeOpenings_opening, List.replicate_succ] at h
    exact absurd (List.cons.inj h).1.symm hc
  | case3 rest =>
    rw [escapeOpenings_slash] at h
    exact absurd (List.cons.inj h).1.symm hc
  | case4 d rest hopening hslash =>
    rw [escapeOpenings] at h
    · obtain ⟨rfl, rfl⟩ := List.cons.inj h
      exact ⟨rest, rfl, rfl⟩
    · exact hopening
    · exact hslash

theorem exists_of_escapeOpenings_concat {c : Char} (hc : isOrdinary c) {n : Nat}
    {more : List Char} (h : escapeOpenings n cs = more ++ [c]) :
    ∃ rest, cs = rest ++ [c] ∧ more = escapeOpenings n rest := by
  have hlast := getLast?_escapeOpenings n cs
  rw [h, List.getLast?_concat] at hlast
  obtain ⟨rest, rfl⟩ := List.getLast?_eq_some_iff.mp hlast.symm
  rw [escapeOpenings_append_ordinary hc] at h
  exact ⟨rest, rfl, (List.append_cancel_right h).symm⟩

theorem exists_of_escapeOpenings_closed {n : Nat} {more : List Char}
    (h : escapeOpenings n cs = more ++ [')', ')']) :
    ∃ rest, cs = rest ++ [')', ')'] ∧ more = escapeOpenings n rest := by
  have hlast : escapeOpenings n cs = (more ++ [')']) ++ [')'] := by
    rw [h, List.append_assoc, List.singleton_append]
  obtain ⟨init, rfl, hinit⟩ := exists_of_escapeOpenings_concat (by decide) hlast
  obtain ⟨rest, rfl, hrest⟩ := exists_of_escapeOpenings_concat (by decide) hinit.symm
  exact ⟨rest, by rw [List.append_assoc, List.singleton_append], hrest⟩

theorem exists_of_escapeOpenings_enclosed {n : Nat} {inner : List Char}
    (h : escapeOpenings n cs = ['(', '('] ++ inner ++ [')', ')']) :
    ∃ rest, cs = ['(', '('] ++ rest ++ [')', ')'] := by
  obtain ⟨rest, rfl, hrest⟩ := exists_of_escapeOpenings_cons (by decide) h
  obtain ⟨rest, rfl, hinner⟩ := exists_of_escapeOpenings_cons (by decide) hrest.symm
  obtain ⟨rest, rfl, -⟩ := exists_of_escapeOpenings_closed hinner.symm
  exact ⟨rest, rfl⟩

theorem exists_of_escapeOpenings_slash {n : Nat} {more : List Char}
    (h : escapeOpenings n cs = '\\' :: '(' :: more) :
    ∃ rest, cs = '\\' :: rest ∧ escapeOpenings (n + 1) rest = '(' :: more := by
  fun_cases escapeOpenings n cs with
  | case1 => exact absurd h (by simp [escapeOpenings])
  | case2 rest =>
    rw [escapeOpenings_opening, List.replicate_succ, List.cons_append] at h
    have hrest := (List.cons.inj h).2
    cases n with
    | zero => exact absurd (List.cons.inj hrest).1 (by decide)
    | succ n =>
      rw [List.replicate_succ] at hrest
      exact absurd (List.cons.inj hrest).1 (by decide)
  | case3 rest =>
    rw [escapeOpenings_slash] at h
    exact ⟨rest, rfl, (List.cons.inj h).2⟩
  | case4 d rest hopening hslash =>
    rw [escapeOpenings_other hslash fun more heq => hopening more (List.cons.inj heq).1
      (List.cons.inj heq).2] at h
    exact absurd (List.cons.inj h).1 hslash

/-! ## Lines -/

def plainText? : List Part → Option (List Char)
  | [] => some []
  | .literal text :: rest => (plainText? rest).map (text.toList ++ ·)
  | .interpolation _ :: _ => none

theorem plainText?_append {parts others : List Part} {xs ys : List Char}
    (hparts : plainText? parts = some xs) (hothers : plainText? others = some ys) :
    plainText? (parts ++ others) = some (xs ++ ys) := by
  induction parts generalizing xs with
  | nil =>
    obtain rfl := Option.some.inj hparts
    exact hothers
  | cons part parts ih =>
    cases part with
    | literal text =>
      obtain ⟨more, hmore, rfl⟩ := Option.map_eq_some_iff.mp hparts
      rw [List.cons_append, plainText?, ih hmore, Option.map_some, List.append_assoc]
    | interpolation t => exact absurd hparts nofun

theorem plainText?_textPart (cs : List Char) : plainText? (textPart cs) = some cs := by
  unfold textPart
  split
  · next hempty => rw [List.isEmpty_iff.mp hempty, plainText?]
  · simp [plainText?]

theorem joinTexts_of_plainText? {parts : List Part} {xs : List Char}
    (h : plainText? parts = some xs) :
    joinTexts parts = [] ∧ xs = [] ∨ joinTexts parts = [.literal (String.ofList xs)] := by
  induction parts generalizing xs with
  | nil => exact .inl ⟨rfl, (Option.some.inj h).symm⟩
  | cons part parts ih =>
    cases part with
    | literal text =>
      obtain ⟨more, hmore, rfl⟩ := Option.map_eq_some_iff.mp h
      right
      rcases ih hmore with ⟨hjoin, rfl⟩ | hjoin
      · simp [joinTexts, hjoin]
      · simp [joinTexts, hjoin]
    | interpolation t => exact absurd h nofun

theorem escapeOpenings_of_none (h : splitAtOpening cs = none) (n : Nat) :
    escapeOpenings n cs = cs := by
  fun_induction escapeOpenings n cs with
  | case1 => rfl
  | case2 => exact absurd h nofun
  | case3 n rest ih =>
    rw [splitAtOpening] at h
    · rw [ih (Option.map_eq_none_iff.mp h)]
    · exact fun _ heq => absurd heq (by decide)
  | case4 n c rest hopening _ ih =>
    rw [splitAtOpening] at h
    · rw [ih (Option.map_eq_none_iff.mp h)]
    · exact hopening

theorem eq_of_splitAtOpening (h : splitAtOpening cs = some (before, after)) :
    cs = before ++ '$' :: '(' :: after := by
  fun_induction splitAtOpening cs generalizing before with
  | case1 => exact absurd h.symm (Option.some_ne_none _)
  | case2 rest =>
    obtain ⟨rfl, rfl⟩ := Prod.mk.inj (Option.some.inj h)
    rfl
  | case3 c rest _ ih =>
    obtain ⟨⟨start, _⟩, hrest, heq⟩ := Option.map_eq_some_iff.mp h
    obtain ⟨rfl, rfl⟩ := Prod.mk.inj heq
    rw [ih hrest, List.cons_append]

/-- The backslashes at the end of what stands before the first opening are doubled, and one more is
added.  They may start in what was escaped before. -/
theorem escapeOpenings_of_some (h : splitAtOpening cs = some (before, after)) (passed : List Char) :
    escapeOpenings (trailing passed) cs
      = before ++ List.replicate (trailing (passed ++ before) + 1) '\\'
        ++ '$' :: '(' :: escapeOpenings 0 after := by
  fun_induction splitAtOpening cs generalizing before passed with
  | case1 => exact absurd h.symm (Option.some_ne_none _)
  | case2 rest =>
    obtain ⟨rfl, rfl⟩ := Prod.mk.inj (Option.some.inj h)
    rw [escapeOpenings_opening, List.append_nil, List.nil_append]
  | case3 c rest hopening ih =>
    obtain ⟨⟨start, _⟩, hrest, heq⟩ := Option.map_eq_some_iff.mp h
    obtain ⟨rfl, rfl⟩ := Prod.mk.inj heq
    have hpassed : passed ++ [c] ++ start = passed ++ c :: start := by simp
    have hih := ih hrest (passed ++ [c])
    rw [hpassed] at hih
    by_cases hc : c = '\\'
    · subst hc
      rw [trailing_concat_slash] at hih
      rw [escapeOpenings_slash, hih]
      rfl
    · rw [trailing_concat hc] at hih
      rw [escapeOpenings_other hc, hih]
      · rfl
      · exact fun more heq => hopening more (List.cons.inj heq).1 (List.cons.inj heq).2

/-- Backslashes before the first opening leave it the first one. -/
theorem splitAtOpening_slashes (h : splitAtOpening cs = some (before, after)) (n : Nat)
    (rest : List Char) :
    splitAtOpening (before ++ List.replicate n '\\' ++ '$' :: '(' :: rest)
      = some (before ++ List.replicate n '\\', rest) := by
  fun_induction splitAtOpening cs generalizing before with
  | case1 => exact absurd h.symm (Option.some_ne_none _)
  | case2 =>
    obtain ⟨rfl, -⟩ := Prod.mk.inj (Option.some.inj h)
    induction n with
    | zero => rfl
    | succ n ih =>
      rw [List.nil_append] at ih ⊢
      rw [List.replicate_succ, List.cons_append, splitAtOpening, ih]
      · rfl
      · exact fun _ heq => absurd heq (by decide)
  | case3 c more hopening ih =>
    obtain ⟨⟨start, _⟩, hmore, heq⟩ := Option.map_eq_some_iff.mp h
    obtain ⟨rfl, rfl⟩ := Prod.mk.inj heq
    rw [List.cons_append, List.cons_append, splitAtOpening, ih hmore]
    · rfl
    · intro others hc heq
      rw [eq_of_splitAtOpening hmore] at hopening
      -- An opening here would be one before the first.
      cases start with
      | cons d start =>
        obtain ⟨rfl, -⟩ := List.cons.inj heq
        exact hopening _ hc rfl
      | nil =>
        cases n with
        | zero => exact absurd (List.cons.inj heq).1 (by decide)
        | succ n => exact absurd (List.cons.inj heq).1 (by decide)

theorem lineParts_of_odd {line rest : List Char} {more : List Part}
    (hsplit : splitAtOpening rest = some (before, after)) (hodd : trailing before % 2 = 1)
    (hmore : lineParts line after = .ok more) :
    lineParts line rest
      = .ok (textPart (before.take (before.length - trailing before + trailing before / 2))
        ++ textPart ['$', '('] ++ more) := by
  unfold lineParts
  split
  · next hnone => exact absurd (hsplit.symm.trans hnone) (Option.some_ne_none _)
  · next _ _ hsome =>
    obtain ⟨rfl, rfl⟩ := Prod.mk.inj (Option.some.inj (hsplit.symm.trans hsome))
    unfold trailing at hodd ⊢
    dsimp only
    rw [if_pos hodd, hmore]
    rfl

theorem lineParts_of_none {line rest : List Char} (hsplit : splitAtOpening rest = none) :
    lineParts line rest = .ok (textPart rest) := by
  unfold lineParts
  split
  · rfl
  · next hsome => exact absurd (hsome.symm.trans hsplit) (Option.some_ne_none _)

/-- A line that was escaped is read as the text that it was. -/
theorem lineParts_escapeOpenings (line cs : List Char) :
    ∃ parts, lineParts line (escapeOpenings 0 cs) = .ok parts ∧ plainText? parts = some cs := by
  cases hsplit : splitAtOpening cs with
  | none =>
    rw [escapeOpenings_of_none hsplit]
    exact ⟨textPart cs, lineParts_of_none hsplit, plainText?_textPart cs⟩
  | some halves =>
    obtain ⟨before, after⟩ := halves
    have hshorter := length_splitAtOpening hsplit
    obtain ⟨more, hmore, hplain⟩ := lineParts_escapeOpenings line after
    have hescaped := escapeOpenings_of_some hsplit []
    rw [List.nil_append] at hescaped
    have hcount := trailing_append_replicate before (trailing before + 1)
    refine ⟨textPart before ++ textPart ['$', '('] ++ more, ?_, ?_⟩
    · -- Of the backslashes, the escape and half of the others are dropped.
      have hkept : (before ++ List.replicate (trailing before + 1) '\\').length
          - trailing (before ++ List.replicate (trailing before + 1) '\\')
          + trailing (before ++ List.replicate (trailing before + 1) '\\') / 2
          = before.length := by
        have hle := trailing_le before
        rw [hcount, List.length_append, List.length_replicate]
        omega
      have hline := lineParts_of_odd (splitAtOpening_slashes hsplit (trailing before + 1)
        (escapeOpenings 0 after)) (by omega) hmore
      rw [hkept, List.take_left] at hline
      rw [show (0 : Nat) = trailing [] from rfl, hescaped]
      exact hline
    · rw [eq_of_splitAtOpening hsplit, plainText?_append (plainText?_append
        (plainText?_textPart before) (plainText?_textPart _)) hplain]
      simp
termination_by cs.length

theorem mem_of_mem_escapeOpenings {c : Char} (hc : c ≠ '\\') {n : Nat}
    (h : c ∈ escapeOpenings n cs) : c ∈ cs := by
  fun_induction escapeOpenings n cs with
  | case1 => exact h
  | case2 n rest ih =>
    rcases List.mem_append.mp h with hslash | hrest
    · exact absurd (List.eq_of_mem_replicate hslash) hc
    · rcases List.mem_cons.mp hrest with rfl | hrest
      · exact List.mem_cons_self
      · rcases List.mem_cons.mp hrest with rfl | hrest
        · exact List.mem_cons_of_mem _ List.mem_cons_self
        · exact List.mem_cons_of_mem _ (List.mem_cons_of_mem _ (ih hrest))
  | case3 n rest ih => exact List.mem_cons_of_mem _ (ih ((List.mem_cons.mp h).resolve_left hc))
  | case4 n d rest _ _ ih =>
    rcases List.mem_cons.mp h with rfl | hrest
    · exact List.mem_cons_self
    · exact List.mem_cons_of_mem _ (ih hrest)

theorem withoutReturn_escapeOpenings (line : List Char) :
    withoutReturn (escapeOpenings 0 line) = escapeOpenings 0 (withoutReturn line) := by
  unfold withoutReturn
  rw [getLast?_escapeOpenings]
  split
  · next hreturn =>
    obtain ⟨start, rfl⟩ := List.getLast?_eq_some_iff.mp hreturn
    rw [escapeOpenings_append_ordinary (by decide)]
    simp [escapeOpenings]
  · rfl

theorem withoutReturn_eq_self {line : List Char} :
    withoutReturn line = line ↔ line.getLast? ≠ some '\r' := by
  unfold withoutReturn
  constructor
  · intro h hreturn
    rw [if_pos hreturn] at h
    obtain ⟨start, rfl⟩ := List.getLast?_eq_some_iff.mp hreturn
    rw [List.dropLast_concat] at h
    exact List.cons_ne_nil '\r' [] (List.self_eq_append_right.mp h)
  · exact fun h => if_neg h

theorem notMem_withoutReturn {c : Char} {line : List Char} (h : c ∉ line) :
    c ∉ withoutReturn line := by
  unfold withoutReturn
  split
  · exact fun hmem => h (List.dropLast_subset line hmem)
  · exact h

theorem escapeOpenings_intercalate (lines : List (List Char)) :
    escapeOpenings 0 (['\n'].intercalate lines)
      = ['\n'].intercalate (lines.map (escapeOpenings 0)) := by
  induction lines with
  | nil => rfl
  | cons line rest ih =>
    cases rest with
    | nil => rw [List.intercalate_singleton, List.map_singleton, List.intercalate_singleton]
    | cons next rest =>
      rw [List.map_cons, List.map_cons, List.intercalate_cons_cons, List.intercalate_cons_cons,
        List.append_assoc, List.singleton_append, escapeOpenings_append_ordinary (by decide), ih,
        List.append_assoc, List.singleton_append, List.map_cons]

theorem splitChars_escapeOpenings (cs : List Char) :
    splitChars '\n' (escapeOpenings 0 cs) = (splitChars '\n' cs).map (escapeOpenings 0) := by
  have hlines := escapeOpenings_intercalate (splitChars '\n' cs)
  rw [intercalate_splitChars] at hlines
  rw [hlines]
  refine splitChars_intercalate (by simpa using splitChars_ne_nil '\n' cs) ?_
  refine List.forall_mem_map.mpr fun line hline hmem => ?_
  exact notMem_of_mem_splitChars hline (mem_of_mem_escapeOpenings (by decide) hmem)

/-- Escaped lines are read as the lines, without the carriage returns at their ends. -/
theorem linesParts_escapeOpenings (lines : List (List Char)) :
    ∃ parts, linesParts (lines.map (escapeOpenings 0)) = .ok parts
      ∧ plainText? parts = some (['\n'].intercalate (lines.map withoutReturn)) := by
  induction lines with
  | nil => exact ⟨[], rfl, rfl⟩
  | cons line rest ih =>
    obtain ⟨parts, hparts, hplain⟩ :=
      lineParts_escapeOpenings (withoutReturn (escapeOpenings 0 line)) (withoutReturn line)
    rw [← withoutReturn_escapeOpenings] at hparts
    cases rest with
    | nil => exact ⟨parts, hparts, by rw [List.map_singleton, List.intercalate_singleton, hplain]⟩
    | cons next rest =>
      obtain ⟨more, hmore, hplainMore⟩ := ih
      refine ⟨parts ++ textPart ['\n'] ++ more, ?_, ?_⟩
      · exact Checked.bind_eq_ok.mpr ⟨parts, hparts, Checked.bind_eq_ok.mpr ⟨more, hmore, rfl⟩⟩
      · rw [plainText?_append (plainText?_append hplain (plainText?_textPart _)) hplainMore]
        exact congrArg some List.intercalate_cons_cons.symm

/-! ## Whole texts -/

/-- Whether escaping keeps a text: it stands in double parentheses, or it is no text in double
parentheses after a backslash, and no line of it ends in a carriage return. -/
def IsKept (s : String) : Prop :=
  (within? ['(', '('] [')', ')'] s.toList).isSome
    ∨ ¬ (within? ['\\', '(', '('] [')', ')'] s.toList).isSome
      ∧ ∀ line ∈ splitChars '\n' s.toList, line.getLast? ≠ some '\r'

instance (s : String) : Decidable (IsKept s) := inferInstanceAs (Decidable (_ ∨ _ ∧ _))

variable {s : String}

theorem read_source (source : String) :
    read ("((" ++ source ++ "))") = (Expression.parse source).map Value.expression := by
  have hwhole : within? ['(', '('] [')', ')'] ("((" ++ source ++ "))").toList
      = some source.toList := by
    rw [String.toList_append, String.toList_append]
    exact within?_append ['(', '('] source.toList [')', ')']
  rw [read, hwhole]
  dsimp only
  rw [String.ofList_toList]

theorem read_of_enclosed {inner : List Char}
    (h : s.toList = ['\\', '(', '('] ++ inner ++ [')', ')']) :
    read s = .ok (.string (String.ofList (s.toList.drop 1))) := by
  have hwhole : within? ['(', '('] [')', ')'] s.toList = none := by
    rw [← Option.not_isSome_iff_eq_none, isSome_within?]
    rintro ⟨other, hother⟩
    exact absurd (List.cons.inj (h.symm.trans hother)).1 (by decide)
  rw [read, hwhole]
  dsimp only
  rw [if_pos (isSome_within?.mpr ⟨inner, h⟩)]

theorem read_escape_of_enclosed (h : (within? ['(', '('] [')', ')'] s.toList).isSome) :
    read (escape s) = .ok (.string s) := by
  obtain ⟨inner, hinner⟩ := isSome_within?.mp h
  have hescaped : (escape s).toList = '\\' :: s.toList := by
    rw [escape, if_pos h, String.toList_append]
    rfl
  have hmarks : (escape s).toList = ['\\', '(', '('] ++ inner ++ [')', ')'] := by
    rw [hescaped, hinner]
    rfl
  rw [read_of_enclosed hmarks, hescaped, List.drop_one, List.tail_cons, String.ofList_toList]

theorem toList_escape_of_not_enclosed (h : ¬ (within? ['(', '('] [')', ')'] s.toList).isSome) :
    (escape s).toList = escapeOpenings 0 s.toList := by
  rw [escape, if_neg h, String.toList_ofList]

/-- A text in double parentheses after a backslash is written as one. -/
theorem toList_escape_of_slash (h : (within? ['\\', '(', '('] [')', ')'] s.toList).isSome) :
    ∃ inner, (escape s).toList = ['\\', '(', '('] ++ inner ++ [')', ')'] := by
  obtain ⟨inner, hinner⟩ := isSome_within?.mp h
  have hnot : ¬ (within? ['(', '('] [')', ')'] s.toList).isSome := by
    rw [isSome_within?]
    rintro ⟨other, hother⟩
    exact absurd (List.cons.inj (hinner.symm.trans hother)).1 (by decide)
  have hclosed : escapeOpenings 0 (inner ++ [')', ')'])
      = escapeOpenings 0 inner ++ [')', ')'] := by
    rw [escapeOpenings_append_ordinary (by decide)]
    rfl
  refine ⟨escapeOpenings 0 inner, ?_⟩
  rw [toList_escape_of_not_enclosed hnot, hinner, List.append_assoc, List.append_assoc, ← hclosed]
  rfl

theorem read_escape_of_plain (hnot : ¬ (within? ['(', '('] [')', ')'] s.toList).isSome)
    (hslash : ¬ (within? ['\\', '(', '('] [')', ')'] s.toList).isSome) :
    read (escape s) = .ok (.string (String.ofList
      (['\n'].intercalate ((splitChars '\n' s.toList).map withoutReturn)))) := by
  have hescaped := toList_escape_of_not_enclosed hnot
  have hwhole : within? ['(', '('] [')', ')'] (escape s).toList = none := by
    rw [← Option.not_isSome_iff_eq_none, isSome_within?, hescaped]
    rintro ⟨inner, hinner⟩
    exact hnot (isSome_within?.mpr (exists_of_escapeOpenings_enclosed hinner))
  have hafter : ¬ (within? ['\\', '(', '('] [')', ')'] (escape s).toList).isSome := by
    rw [isSome_within?, hescaped]
    rintro ⟨inner, hinner⟩
    obtain ⟨rest, hrest, henclosed⟩ := exists_of_escapeOpenings_slash hinner
    obtain ⟨inside, rfl⟩ := exists_of_escapeOpenings_enclosed henclosed
    exact hslash (isSome_within?.mpr ⟨inside, hrest⟩)
  obtain ⟨parts, hparts, hplain⟩ := linesParts_escapeOpenings (splitChars '\n' s.toList)
  rw [read, hwhole]
  dsimp only
  rw [if_neg hafter, readMixed, hescaped, splitChars_escapeOpenings]
  refine Checked.bind_eq_ok.mpr ⟨parts, hparts, ?_⟩
  rcases joinTexts_of_plainText? hplain with ⟨hjoin, hnil⟩ | hjoin
  · rw [hjoin, hnil]
    rfl
  · rw [hjoin]
    rfl

theorem read_of_plain (hnot : ¬ (within? ['(', '('] [')', ')'] s.toList).isSome)
    (hslash : ¬ (within? ['\\', '(', '('] [')', ')'] s.toList).isSome)
    (hsplit : splitAtOpening s.toList = none) :
    read s = .ok (.string (String.ofList
      (['\n'].intercalate ((splitChars '\n' s.toList).map withoutReturn)))) := by
  have hsame : escape s = s := by
    rw [← String.toList_inj, toList_escape_of_not_enclosed hnot, escapeOpenings_of_none hsplit]
  rw [← read_escape_of_plain hnot hslash, hsame]

theorem intercalate_withoutReturn :
    ['\n'].intercalate ((splitChars '\n' cs).map withoutReturn) = cs
      ↔ ∀ line ∈ splitChars '\n' cs, line.getLast? ≠ some '\r' := by
  constructor
  · intro h line hline
    have hsplit : splitChars '\n' (['\n'].intercalate ((splitChars '\n' cs).map withoutReturn))
        = (splitChars '\n' cs).map withoutReturn := by
      refine splitChars_intercalate (by simpa using splitChars_ne_nil '\n' cs) ?_
      exact List.forall_mem_map.mpr fun line hline =>
        notMem_withoutReturn (notMem_of_mem_splitChars hline)
    have hsame : (splitChars '\n' cs).map withoutReturn = (splitChars '\n' cs).map id := by
      rw [← hsplit, h, List.map_id]
    exact withoutReturn_eq_self.mp (List.map_inj_left.mp hsame line hline)
  · intro h
    rw [List.map_congr_left fun line hline => withoutReturn_eq_self.mpr (h line hline),
      List.map_id', intercalate_splitChars]

/-- What is read back for a text that was escaped.  A backslash before double parentheses is taken
for the escape of these, and the carriage returns at the ends of lines are dropped. -/
def restored (s : String) : String :=
  if (within? ['(', '('] [')', ')'] s.toList).isSome then s
  else if (within? ['\\', '(', '('] [')', ')'] s.toList).isSome then
    String.ofList ((escapeOpenings 0 s.toList).drop 1)
  else String.ofList (['\n'].intercalate ((splitChars '\n' s.toList).map withoutReturn))

theorem read_escape_eq_restored (s : String) : read (escape s) = .ok (.string (restored s)) := by
  by_cases henclosed : (within? ['(', '('] [')', ')'] s.toList).isSome
  · rw [restored, if_pos henclosed, read_escape_of_enclosed henclosed]
  by_cases hslash : (within? ['\\', '(', '('] [')', ')'] s.toList).isSome
  · obtain ⟨inner, hescaped⟩ := toList_escape_of_slash hslash
    rw [restored, if_neg henclosed, if_pos hslash, read_of_enclosed hescaped,
      toList_escape_of_not_enclosed henclosed]
  · rw [restored, if_neg henclosed, if_neg hslash, read_escape_of_plain henclosed hslash]

theorem restored_eq_self : restored s = s ↔ IsKept s := by
  by_cases henclosed : (within? ['(', '('] [')', ')'] s.toList).isSome
  · rw [restored, if_pos henclosed]
    exact iff_of_true rfl (.inl henclosed)
  by_cases hslash : (within? ['\\', '(', '('] [')', ')'] s.toList).isSome
  · refine iff_of_false (fun heq => ?_) (not_or.mpr ⟨henclosed, fun h => h.1 hslash⟩)
    -- What is read back starts with a parenthesis, and the text with a backslash.
    obtain ⟨inner, hescaped⟩ := toList_escape_of_slash hslash
    obtain ⟨other, hother⟩ := isSome_within?.mp hslash
    rw [restored, if_neg henclosed, if_pos hslash, ← toList_escape_of_not_enclosed henclosed,
      hescaped, ← String.toList_inj, String.toList_ofList, hother] at heq
    exact absurd (List.cons.inj heq).1 (by decide)
  · rw [restored, if_neg henclosed, if_neg hslash, ← String.toList_inj, String.toList_ofList,
      intercalate_withoutReturn, IsKept, or_iff_right henclosed, and_iff_right hslash]

/-- What is written for a text is read as a text, whatever the text is, and as the same one exactly
if escaping keeps it. -/
theorem read_escape (s : String) :
    read (escape s) = .ok (.string (restored s))
      ∧ (read (escape s) = .ok (.string s) ↔ IsKept s) := by
  refine ⟨read_escape_eq_restored s, ?_⟩
  rw [read_escape_eq_restored, ← restored_eq_self, Except.ok.injEq, Value.string.injEq]

/-- The backslash of `\((var.a))` is lost, since escaping adds no other one to it. -/
theorem not_read_escape_eq_self : ¬ ∀ s, read (escape s) = .ok (.string s) := by
  intro h
  have hread := h "\\((var.a))"
  rw [read_escape_eq_restored] at hread
  exact absurd (Value.string.inj (Except.ok.inj hread)) (by decide +kernel)

end ClusterBlueprint.Literal
