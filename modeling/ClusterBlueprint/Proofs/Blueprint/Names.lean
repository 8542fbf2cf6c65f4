import ClusterBlueprint.Blueprint.Structure
import Mathlib.Computability.Language

/-!
The patterns of names, as languages.

The names of groups are those of `\w(-*\w)*`, the names of settings those of
`[a-zA-Z-_][a-zA-Z0-9-_]*`.
-/

namespace ClusterBlueprint.Structure

open Computability

/-- The texts of one character of a class. -/
def oneOf (p : Char → Bool) : Language Char := {text | ∃ c, p c ∧ text = [c]}

/-- The pattern `\w(-*\w)*`. -/
def groupPattern : Language Char :=
  oneOf Text.isWordCharacter * ((oneOf (· = '-'))∗ * oneOf Text.isWordCharacter)∗

/-- The class `[a-zA-Z-_]`. -/
def opensSetting (c : Char) : Bool := c.isAlpha || c = '-' || c = '_'

/-- The class `[a-zA-Z0-9-_]`. -/
def continuesSetting (c : Char) : Bool := c.isAlpha || c.isDigit || c = '-' || c = '_'

/-- The pattern `[a-zA-Z-_][a-zA-Z0-9-_]*`. -/
def settingPattern : Language Char := oneOf opensSetting * (oneOf continuesSetting)∗

variable {p : Char → Bool} {text rest : List Char} {c : Char}

theorem singleton_mem_oneOf : [c] ∈ oneOf p ↔ p c :=
  ⟨fun ⟨_, h, heq⟩ => (List.cons.inj heq).1 ▸ h, fun h => ⟨c, h, rfl⟩⟩

theorem mem_oneOf_mul {l : Language Char} :
    text ∈ oneOf p * l ↔ ∃ c rest, text = c :: rest ∧ p c ∧ rest ∈ l := by
  rw [Language.mem_mul]
  constructor
  · rintro ⟨_, ⟨c, hc, rfl⟩, rest, hrest, rfl⟩
    exact ⟨c, rest, rfl, hc, hrest⟩
  · rintro ⟨c, rest, rfl, hc, hrest⟩
    exact ⟨[c], singleton_mem_oneOf.mpr hc, rest, hrest, rfl⟩

theorem append_mem_kstar {l : Language Char} (htext : text ∈ l) (hrest : rest ∈ l∗) :
    text ++ rest ∈ l∗ := by
  obtain ⟨parts, rfl, hparts⟩ := Language.mem_kstar.mp hrest
  exact Language.mem_kstar.mpr ⟨text :: parts, rfl, List.forall_mem_cons.mpr ⟨htext, hparts⟩⟩

theorem mem_kstar_oneOf : text ∈ (oneOf p)∗ ↔ ∀ c ∈ text, p c := by
  constructor
  · intro h
    obtain ⟨parts, rfl, hparts⟩ := Language.mem_kstar.mp h
    intro c hc
    obtain ⟨part, hpart, hmem⟩ := List.mem_flatten.mp hc
    obtain ⟨d, hd, rfl⟩ := hparts part hpart
    rwa [List.mem_singleton.mp hmem]
  · intro h
    induction text with
    | nil => exact Language.nil_mem_kstar _
    | cons c text ih =>
      obtain ⟨hc, htext⟩ := List.forall_mem_cons.mp h
      exact append_mem_kstar (singleton_mem_oneOf.mpr hc) (ih htext)

/-- Dashes that a word character ends, any number of times: what follows the first character. -/
theorem mem_kstar_dashed : rest ∈ ((oneOf (· = '-'))∗ * oneOf Text.isWordCharacter)∗
    ↔ (∀ c ∈ rest, Text.isWordCharacter c ∨ c = '-')
      ∧ ∀ c ∈ rest.getLast?, Text.isWordCharacter c := by
  constructor
  · intro h
    obtain ⟨parts, rfl, hparts⟩ := Language.mem_kstar.mp h
    clear h
    -- The last part that there is ends in a word character.
    induction parts using List.reverseRecOn with
    | nil => exact ⟨List.forall_mem_nil _, nofun⟩
    | append_singleton parts part ih =>
      obtain ⟨hinit, hlast⟩ := List.forall_mem_append.mp hparts
      obtain ⟨dashes, hdashes, _, ⟨c, hc, rfl⟩, rfl⟩ :=
        Language.mem_mul.mp (List.forall_mem_singleton.mp hlast)
      have hdash := mem_kstar_oneOf.mp hdashes
      rw [List.flatten_append, List.flatten_singleton, ← List.append_assoc]
      refine ⟨fun d hd => ?_, fun d hd => ?_⟩
      · rcases List.mem_append.mp hd with hd | hd
        · rcases List.mem_append.mp hd with hd | hd
          · exact (ih hinit).1 d hd
          · exact .inr (by simpa using hdash d hd)
        · exact .inl (List.mem_singleton.mp hd ▸ hc)
      · rw [List.getLast?_append_cons, List.getLast?_singleton, Option.mem_some_iff] at hd
        exact hd ▸ hc
  · rintro ⟨hall, hlast⟩
    -- Dashes that were passed wait for the word character after them.
    suffices h : ∀ dashes, dashes ∈ (oneOf (· = '-'))∗ → (rest = [] → dashes = []) →
        dashes ++ rest ∈ ((oneOf (· = '-'))∗ * oneOf Text.isWordCharacter)∗ from
      h [] (Language.nil_mem_kstar _) fun _ => rfl
    induction rest with
    | nil =>
      intro dashes _ hempty
      rw [hempty rfl]
      exact Language.nil_mem_kstar _
    | cons c rest ih =>
      intro dashes hdashes _
      obtain ⟨hc, hrest⟩ := List.forall_mem_cons.mp hall
      have hrestLast : ∀ d ∈ rest.getLast?, Text.isWordCharacter d := fun d hd =>
        hlast d (by rw [List.getLast?_cons, Option.mem_def.mp hd]; rfl)
      rcases hc with hc | rfl
      · have hpart : dashes ++ [c] ∈ (oneOf (· = '-'))∗ * oneOf Text.isWordCharacter :=
          Language.append_mem_mul hdashes (singleton_mem_oneOf.mpr hc)
        have hmore := ih hrest hrestLast [] (Language.nil_mem_kstar _) fun _ => rfl
        rw [List.append_cons]
        exact append_mem_kstar hpart hmore
      · have hmore : dashes ++ ['-'] ∈ (oneOf (· = '-'))∗ :=
          mem_kstar_oneOf.mpr (List.forall_mem_append.mpr
            ⟨mem_kstar_oneOf.mp hdashes, List.forall_mem_singleton.mpr rfl⟩)
        rw [List.append_cons]
        refine ih hrest hrestLast _ hmore fun hnil => ?_
        subst hnil
        exact absurd (hlast '-' rfl) (by decide)

theorem isGroupName_iff {name : String} : isGroupName name ↔ name.toList ∈ groupPattern := by
  unfold isGroupName groupPattern
  rw [mem_oneOf_mul]
  simp only [mem_kstar_dashed]
  cases name.toList with
  | nil => simp
  | cons c rest =>
    simp only [List.head?_cons, Option.any_some, Bool.and_eq_true, List.all_eq_true,
      Bool.or_eq_true, decide_eq_true_eq, List.forall_mem_cons, List.getLast?_cons,
      List.cons.injEq]
    constructor
    · rintro ⟨⟨hc, hlast⟩, -, hrest⟩
      refine ⟨c, rest, ⟨rfl, rfl⟩, hc, hrest, fun d hd => ?_⟩
      simpa [Option.mem_def.mp hd] using hlast
    · rintro ⟨_, _, ⟨rfl, rfl⟩, hc, hrest, hlast⟩
      refine ⟨⟨hc, ?_⟩, .inl hc, hrest⟩
      cases h : rest.getLast? with
      | none => simpa using hc
      | some d => simpa using hlast d h

theorem not_isDigit_of_isAlpha (h : c.isAlpha) : ¬ c.isDigit := by
  intro hdigit
  have hnine : c.toNat ≤ 57 := of_decide_eq_true (Bool.and_eq_true_iff.mp hdigit).2
  rcases Bool.or_eq_true_iff.mp h with hupper | hlower
  · have hlow : 65 ≤ c.toNat := (of_decide_eq_true hupper).1
    omega
  · have hlow : 97 ≤ c.toNat := of_decide_eq_true (Bool.and_eq_true_iff.mp hlower).1
    omega

theorem opensSetting_iff : opensSetting c ↔ continuesSetting c ∧ ¬ c.isDigit := by
  unfold opensSetting continuesSetting
  by_cases hdigit : c.isDigit
  · have halpha : ¬ c.isAlpha := fun h => not_isDigit_of_isAlpha h hdigit
    have hdash : c ≠ '-' := fun h => absurd (h ▸ hdigit) (by decide)
    have hunder : c ≠ '_' := fun h => absurd (h ▸ hdigit) (by decide)
    simp [hdigit, halpha, hdash, hunder]
  · simp [hdigit]

theorem isSettingName_iff {name : String} : isSettingName name ↔ name.toList ∈ settingPattern := by
  unfold isSettingName settingPattern
  rw [mem_oneOf_mul]
  simp only [mem_kstar_oneOf, opensSetting_iff]
  cases name.toList with
  | nil => simp
  | cons first rest => simp [continuesSetting, Char.isAlphanum]

end ClusterBlueprint.Structure
