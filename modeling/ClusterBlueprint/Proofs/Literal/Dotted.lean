import ClusterBlueprint.Literal
import ClusterBlueprint.Proofs.Expression.Scanning
import ClusterBlueprint.Proofs.Text.Separation

/-!
References that documents spell as dotted paths.

The words of a dotted path may have letters that the lexer does not know.  If there are none, the
reference is a canonical tree.  If there is one, the lexer fails at it, so the text of the reference
is at the front of no source text that can be read.
-/

namespace ClusterBlueprint

open Lexer Literal

/-! ## Characters that the lexer does not know -/

namespace Lexer

variable {state : State}

theorem isIdentContinue_of_isIdentStart {c : Char} (h : isIdentStart c) : isIdentContinue c := by
  rw [isIdentStart, Bool.or_eq_true] at h
  rcases h with h | h <;> simp [isIdentContinue, Char.isAlphanum, h]

theorem toNat_lt_of_isIdentContinue {c : Char} (h : isIdentContinue c) : c.toNat < 128 := by
  rw [isIdentContinue, Bool.or_eq_true, Bool.or_eq_true] at h
  rcases h with (h | h) | h
  · have hcharacter : (decide (c.val ≥ 'A'.val ∧ c.val ≤ 'Z'.val)
        || (decide (c.val ≥ 'a'.val) && decide (c.val ≤ 'z'.val))
        || (decide (c.val ≥ '0'.val) && decide (c.val ≤ '9'.val))) = true := h
    show c.val.toNat < 128
    simp only [Bool.or_eq_true, Bool.and_eq_true, decide_eq_true_eq, UInt32.le_iff_toNat_le,
      ge_iff_le] at hcharacter
    have hZ : 'Z'.val.toNat = 90 := rfl
    have hz : 'z'.val.toNat = 122 := rfl
    have h9 : '9'.val.toNat = 57 := rfl
    omega
  · rw [of_decide_eq_true h]
    decide
  · rw [of_decide_eq_true h]
    decide

/-- A letter that no identifier goes on with is beyond ASCII. -/
theorem toNat_ge_of_isWordCharacter {c : Char} (hword : Text.isWordCharacter c)
    (h : ¬ isIdentContinue c) : 128 ≤ c.toNat := by
  by_contra hlt
  rw [Text.isWordCharacter, if_pos (by omega)] at hword
  exact h (Bool.or_eq_true_iff.mpr (.inl hword))

theorem scanSign_of_toNat_ge {c : Char} (hc : 128 ≤ c.toNat) (input : List Char) :
    scanSign (c :: input) = none := by
  unfold scanSign
  split
  all_goals first
    | rfl
    | (next heq =>
        obtain ⟨rfl, -⟩ := List.cons.inj heq
        exact absurd hc (by decide))

/-- Beyond ASCII no token of code starts. -/
theorem advance_of_toNat_ge (hstate : state.isCode) {c : Char} (hc : 128 ≤ c.toNat)
    (input : List Char) : ∃ fault, advance state (c :: input) = .error fault := by
  have hcontinue : ¬ isIdentContinue c := fun h =>
    absurd (toNat_lt_of_isIdentContinue h) (Nat.not_lt.mpr hc)
  have hne {d : Char} (hd : d.toNat < 128) : c ≠ d := by
    rintro rfl
    omega
  have hblank : ¬ isBlank c := by simp [isBlank, hne]
  rw [advance_code hstate hblank, codeStep, if_neg (hne (by decide)), if_neg (hne (by decide)),
    if_neg (hne (by decide)), if_neg fun h => hcontinue (isIdentContinue_of_isDigit h),
    if_neg fun h => hcontinue (isIdentContinue_of_isIdentStart h)]
  split
  · next hsign => exact absurd ((scanSign_of_toNat_ge hc input).symm.trans hsign) (by simp)
  · exact ⟨_, rfl⟩

/-! ## Texts that the lexer does not read to their end -/

def Stops (cs : List Char) : Prop :=
  ∀ state : State, state.isCode → ∀ rest tokens, scanFrom state (cs ++ rest) ≠ .ok tokens

theorem Stops.append {cs : List Char} (h : Stops cs) (more : List Char) : Stops (cs ++ more) := by
  intro state hstate rest tokens
  rw [List.append_assoc]
  exact h state hstate _ tokens

/-- The lexer reads on from where it arrives. -/
theorem Reads.exists_append {after : State} {input rest : List Char} {tokens all : List Token}
    (hreads : Reads state input tokens after rest) (h : scanFrom state input = .ok all) :
    ∃ more, all = tokens ++ more ∧ scanFrom after rest = .ok more := by
  rw [hreads] at h
  cases hmore : scanFrom after rest with
  | error fault => simp [hmore, Except.map] at h
  | ok more =>
    rw [hmore] at h
    exact ⟨more, (Except.ok.inj h).symm, rfl⟩

theorem Reads.exists_ok {after : State} {input rest : List Char} {tokens all : List Token}
    (hreads : Reads state input tokens after rest) (h : scanFrom state input = .ok all) :
    ∃ more, scanFrom after rest = .ok more := by
  obtain ⟨more, -, hmore⟩ := hreads.exists_append h
  exact ⟨more, hmore⟩

theorem scanFrom_ne_ok_of_advance {input : List Char} {fault : Fault}
    (h : advance state input = .error fault) (tokens : List Token) :
    scanFrom state input ≠ .ok tokens := by
  rw [scanFrom_eq, h]
  simp

theorem exists_first_not {p : Char → Bool} {cs : List Char} (h : ¬ cs.all p) :
    ∃ before c after, cs = before ++ c :: after ∧ before.all p ∧ ¬ p c := by
  induction cs with
  | nil => exact absurd rfl h
  | cons c cs ih =>
    by_cases hc : p c
    · have hcs : ¬ cs.all p := fun hcs => h (Bool.and_eq_true_iff.mpr ⟨hc, hcs⟩)
      obtain ⟨before, d, after, rfl, hbefore, hd⟩ := ih hcs
      exact ⟨c :: before, d, after, rfl, Bool.and_eq_true_iff.mpr ⟨hc, hbefore⟩, hd⟩
    · exact ⟨[], c, cs, rfl, rfl, hc⟩

theorem exists_cons_of_isDottedWord {cs : List Char} (h : isDottedWord cs) :
    ∃ first more, cs = first :: more ∧ isIdentStart first
      ∧ ∀ c ∈ more, Text.isWordCharacter c ∨ c = '-' := by
  cases cs with
  | nil => exact absurd h Bool.false_ne_true
  | cons first more =>
    obtain ⟨hfirst, hmore⟩ := Bool.and_eq_true_iff.mp h
    exact ⟨first, more, rfl, hfirst, by simpa using hmore⟩

/-- A word that is no identifier is not read to its end. -/
theorem stops_word {word : String} (hword : isDottedWord word.toList)
    (hnot : ¬ isIdentifier word) : Stops word.toList := by
  intro state hstate rest tokens hok
  obtain ⟨first, more, heq, hfirst, hmore⟩ := exists_cons_of_isDottedWord hword
  rw [isIdentifier, heq] at hnot
  rw [heq] at hok
  have hall : ¬ more.all isIdentContinue := fun hall =>
    hnot (Bool.and_eq_true_iff.mpr ⟨hfirst, hall⟩)
  -- The word goes on as an identifier up to the first character that the lexer does not know.
  obtain ⟨before, c, after, rfl, hbefore, hc⟩ := exists_first_not hall
  have hbeyond : 128 ≤ c.toNat := by
    have hmem : c ∈ before ++ c :: after := List.mem_append_right _ List.mem_cons_self
    rcases hmore c hmem with h | rfl
    · exact toNat_ge_of_isWordCharacter h hc
    · exact absurd rfl hc
  have hidentifier : isIdentifier (String.ofList (first :: before)) := by
    rw [isIdentifier, String.toList_ofList]
    exact Bool.and_eq_true_iff.mpr ⟨hfirst, hbefore⟩
  have hends : Ends (c :: (after ++ rest)) := by
    refine ends_cons hc ?_ _
    rintro rfl
    exact absurd hbeyond (by decide)
  have hread := advance_ident hstate hidentifier hends
  rw [String.toList_ofList] at hread
  rw [List.cons_append, List.append_assoc, List.cons_append, ← List.cons_append] at hok
  obtain ⟨_, hrest⟩ := (Reads.single hread).exists_ok hok
  obtain ⟨fault, hfault⟩ := advance_of_toNat_ge hstate hbeyond (after ++ rest)
  exact scanFrom_ne_ok_of_advance hfault _ hrest

theorem ends_attribute {word : String} (hword : isDottedWord word.toList) (rest : List Char)
    (steps : List ClusterBlueprint.Step) :
    Ends ((Term.stepsText (.attribute word :: steps)).toList ++ rest) := by
  obtain ⟨first, more, heq, hfirst, -⟩ := exists_cons_of_isDottedWord hword
  have htext : (Term.stepsText (.attribute word :: steps)).toList ++ rest
      = '.' :: first :: (more ++ ((Term.stepsText steps).toList ++ rest)) := by
    simp [Term.stepsText, heq]
  rw [htext]
  exact ends_dot (not_isDigit_of_isIdentStart hfirst) _

/-- Attributes are read to their end only if all of them are identifiers. -/
theorem stops_stepsText {names : List String} (hwords : ∀ name ∈ names, isDottedWord name.toList)
    (h : ¬ ∀ name ∈ names, isIdentifier name) :
    Stops (Term.stepsText (names.map Step.attribute)).toList := by
  intro state hstate rest tokens hok
  induction names generalizing rest tokens with
  | nil => exact h (List.forall_mem_nil _)
  | cons name names ih =>
    obtain ⟨hword, hwords⟩ := List.forall_mem_cons.mp hwords
    have htext : (Term.stepsText ((name :: names).map Step.attribute)).toList ++ rest
        = '.' :: (name.toList ++ ((Term.stepsText (names.map Step.attribute)).toList ++ rest)) := by
      simp [Term.stepsText]
    rw [htext] at hok
    obtain ⟨_, hok⟩ := (Reads.single (advance_sign hstate rfl)).exists_ok hok
    by_cases hname : isIdentifier name
    · have hnames : ¬ ∀ name ∈ names, isIdentifier name := fun hnames =>
        h (List.forall_mem_cons.mpr ⟨hname, hnames⟩)
      have hends : Ends ((Term.stepsText (names.map Step.attribute)).toList ++ rest) := by
        cases names with
        | nil => exact absurd (List.forall_mem_nil _) hnames
        | cons next names => exact ends_attribute (hwords next List.mem_cons_self) _ _
      obtain ⟨_, hok⟩ := (Reads.single (advance_ident hstate hname hends)).exists_ok hok
      exact ih hwords hnames _ _ hok
    · exact stops_word hword hname state hstate _ _ hok

end Lexer

/-! ## Dotted paths -/

namespace Term

/-- A reference whose words are those of a dotted path. -/
def IsDotted (t : Term) : Prop :=
  ∃ root names, t = ofNames root names ∧ (root = Reference.globalRoot ∨ root = Reference.moduleRoot)
    ∧ ∀ name ∈ names, isDottedWord name.toList

variable {root : String} {names : List String}

theorem toList_text_ofNames (root : String) (names : List String) :
    (ofNames root names).text.toList
      = root.toList ++ (stepsText (names.map Step.attribute)).toList := by
  simp [ofNames, text]

theorem isName_of_root (h : root = Reference.globalRoot ∨ root = Reference.moduleRoot) :
    isName root := by
  rcases h with rfl | rfl <;> decide

theorem canonicalSteps_attributes (h : ∀ name ∈ names, isIdentifier name) :
    CanonicalSteps (names.map Step.attribute) := by
  induction names with
  | nil => trivial
  | cons name names ih =>
    obtain ⟨hname, hnames⟩ := List.forall_mem_cons.mp h
    exact ⟨hname, ih hnames⟩

/-- Words with dots between them are read to their end only if all of them are identifiers. -/
theorem stops_ofNames (hroot : isDottedWord root.toList)
    (hnames : ∀ name ∈ names, isDottedWord name.toList)
    (h : isIdentifier root → ¬ ∀ name ∈ names, isIdentifier name) :
    Stops (ofNames root names).text.toList := by
  rw [toList_text_ofNames]
  by_cases hidentifier : isIdentifier root
  · intro state hstate rest tokens hok
    rw [List.append_assoc] at hok
    have hends : Ends ((stepsText (names.map Step.attribute)).toList ++ rest) := by
      cases names with
      | nil => exact absurd (List.forall_mem_nil _) (h hidentifier)
      | cons name names => exact ends_attribute (hnames name List.mem_cons_self) _ _
    obtain ⟨_, hrest⟩ := (Reads.single (advance_ident hstate hidentifier hends)).exists_ok hok
    exact stops_stepsText hnames (h hidentifier) state hstate _ _ hrest
  · exact (stops_word hroot hidentifier).append _

theorem isDottedWord_of_root (h : root = Reference.globalRoot ∨ root = Reference.moduleRoot) :
    isDottedWord root.toList := by
  rcases h with rfl | rfl <;> decide

/-- A dotted path is a canonical tree, or its text is not read to its end. -/
theorem IsDotted.canonical_or_stops {t : Term} (h : t.IsDotted) :
    t.Canonical ∨ Stops t.text.toList := by
  obtain ⟨root, names, rfl, hroot, hwords⟩ := h
  by_cases hnames : ∀ name ∈ names, isIdentifier name
  · exact .inl ⟨isName_of_root hroot, canonicalSteps_attributes hnames⟩
  · exact .inr (stops_ofNames (isDottedWord_of_root hroot) hwords fun _ => hnames)

theorem notMem_of_isDottedWord {mark : Char} (hstart : ¬ isIdentStart mark)
    (hword : ¬ Text.isWordCharacter mark) (hdash : mark ≠ '-') {cs : List Char}
    (h : isDottedWord cs) : mark ∉ cs := by
  obtain ⟨first, more, rfl, hfirst, hmore⟩ := exists_cons_of_isDottedWord h
  intro hmem
  rcases List.mem_cons.mp hmem with rfl | hmem
  · exact hstart hfirst
  · exact (hmore mark hmem).elim hword hdash

/-- A mark that no word has and that is no dot is not between words with dots between them. -/
theorem notMem_text_ofNames {mark : Char} (hdot : mark ≠ '.')
    (hmark : ∀ cs, isDottedWord cs → mark ∉ cs) (hroot : isDottedWord root.toList)
    (hnames : ∀ name ∈ names, isDottedWord name.toList) :
    mark ∉ (ofNames root names).text.toList := by
  rw [toList_text_ofNames, List.mem_append, not_or]
  refine ⟨hmark _ hroot, ?_⟩
  induction names with
  | nil => exact List.not_mem_nil
  | cons name names ih =>
    obtain ⟨hname, hnames⟩ := List.forall_mem_cons.mp hnames
    simp [stepsText, hdot, hmark _ hname, ih hnames]

/-- The text of a dotted path has no brace. -/
theorem IsDotted.closeBrace_notMem {t : Term} (h : t.IsDotted) : '}' ∉ t.text.toList := by
  obtain ⟨root, names, rfl, hroot, hwords⟩ := h
  exact notMem_text_ofNames (by decide)
    (fun _ => notMem_of_isDottedWord (by decide) (by decide) (by decide))
    (isDottedWord_of_root hroot) hwords

theorem dot_notMem_of_isDottedWord {cs : List Char} (h : isDottedWord cs) : '.' ∉ cs :=
  notMem_of_isDottedWord (by decide) (by decide) (by decide) h

theorem head_stepsText_attributes (names : List String) :
    ∀ c ∈ (stepsText (names.map Step.attribute)).toList.head?, c = '.' := by
  intro c hc
  cases names with
  | nil => exact absurd hc (by simp [stepsText])
  | cons name names =>
    have hhead : '.' = c := by simpa [stepsText] using hc
    exact hhead.symm

theorem eq_of_stepsText_eq {others : List String}
    (hnames : ∀ name ∈ names, isDottedWord name.toList)
    (hothers : ∀ name ∈ others, isDottedWord name.toList)
    (h : (stepsText (names.map Step.attribute)).toList
      = (stepsText (others.map Step.attribute)).toList) : names = others := by
  induction names generalizing others with
  | nil =>
    cases others with
    | nil => rfl
    | cons name others => simp [stepsText] at h
  | cons name names ih =>
    cases others with
    | nil => simp [stepsText] at h
    | cons other others =>
      obtain ⟨hname, hnames⟩ := List.forall_mem_cons.mp hnames
      obtain ⟨hother, hothers⟩ := List.forall_mem_cons.mp hothers
      have htext : name.toList ++ (stepsText (names.map Step.attribute)).toList
          = other.toList ++ (stepsText (others.map Step.attribute)).toList := by
        simpa [stepsText] using h
      obtain ⟨hword, hrest⟩ := Text.append_inj_of_notMem (head_stepsText_attributes names)
        (head_stepsText_attributes others) (dot_notMem_of_isDottedWord hname)
        (dot_notMem_of_isDottedWord hother) htext
      rw [String.toList_inj.mp hword, ih hnames hothers hrest]

/-- Dotted paths of one text are one tree. -/
theorem IsDotted.eq_of_text {t u : Term} (ht : t.IsDotted) (hu : u.IsDotted)
    (h : t.text = u.text) : t = u := by
  obtain ⟨root, names, rfl, hroot, hnames⟩ := ht
  obtain ⟨other, others, rfl, hother, hothers⟩ := hu
  have htext : root.toList ++ (stepsText (names.map Step.attribute)).toList
      = other.toList ++ (stepsText (others.map Step.attribute)).toList := by
    rw [← toList_text_ofNames, ← toList_text_ofNames, h]
  obtain ⟨hword, hrest⟩ := Text.append_inj_of_notMem (head_stepsText_attributes names)
    (head_stepsText_attributes others) (dot_notMem_of_isDottedWord (isDottedWord_of_root hroot))
    (dot_notMem_of_isDottedWord (isDottedWord_of_root hother)) htext
  rw [String.toList_inj.mp hword, eq_of_stepsText_eq hnames hothers hrest]

end Term

/-- Two words are a variable or an output, and three are an output in a group. -/
theorem Reference.cases_of_parseText {text : String} {reference : Reference}
    (h : parseText text = .ok reference) :
    (∃ first name, Text.split '.' text = [first, name]
        ∧ reference = if first = globalNamespace then .global name else .ofModule first name)
      ∨ ∃ group module name, Text.split '.' text = [group, module, name]
        ∧ group ≠ globalNamespace ∧ reference = .output (some group) module name := by
  unfold parseText at h
  dsimp only at h
  split at h
  · exact absurd h nofun
  split at h
  · next hwords => exact .inl ⟨_, _, hwords, (Except.ok.inj h).symm⟩
  · next hwords =>
    split at h
    · exact absurd h nofun
    · next hgroup => exact .inr ⟨_, _, _, hwords, hgroup, (Except.ok.inj h).symm⟩
  · exact absurd h nofun

end ClusterBlueprint
