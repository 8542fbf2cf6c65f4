import ClusterBlueprint.Proofs.Evaluation.Yields
import ClusterBlueprint.Proofs.References
import ClusterBlueprint.Proofs.SortedMap

/-!
Values and dictionaries whose expressions are replaced.

What stands in the image of a value is what stands in the images of its expressions, in their order.
-/

namespace ClusterBlueprint

namespace Value

/-- Whether some expressions have images, and the expressions in these are `inner`. -/
def ImagesHold (f : Expression → Evaluation Value) (es inner : List Expression) : Prop :=
  ∃ images : List Value,
    es.map (fun e => (f e).result) = images.map .ok ∧ images.flatMap expressions = inner

namespace ImagesHold

variable {f : Expression → Evaluation Value} {es more inner others : List Expression}

theorem nil : ImagesHold f [] [] := ⟨[], rfl, rfl⟩

theorem append (h : ImagesHold f es inner) (hmore : ImagesHold f more others) :
    ImagesHold f (es ++ more) (inner ++ others) := by
  obtain ⟨images, heq, rfl⟩ := h
  obtain ⟨rest, hrest, rfl⟩ := hmore
  exact ⟨images ++ rest, by rw [List.map_append, List.map_append, heq, hrest],
    List.flatMap_append⟩

theorem exists_image (h : ImagesHold f es inner) {e : Expression} (he : e ∈ es) :
    ∃ image, (f e).result = .ok image ∧ ∀ i ∈ image.expressions, i ∈ inner := by
  obtain ⟨images, heq, rfl⟩ := h
  have hmem := List.mem_map_of_mem (f := fun e => (f e).result) he
  rw [heq] at hmem
  obtain ⟨image, himage, hok⟩ := List.mem_map.mp hmem
  exact ⟨image, hok.symm, fun i hi => List.mem_flatMap.mpr ⟨image, himage, hi⟩⟩

theorem exists_original (h : ImagesHold f es inner) {i : Expression} (hi : i ∈ inner) :
    ∃ e ∈ es, ∃ image, (f e).result = .ok image ∧ i ∈ image.expressions := by
  obtain ⟨images, heq, rfl⟩ := h
  obtain ⟨image, himage, hmem⟩ := List.mem_flatMap.mp hi
  have hok := List.mem_map_of_mem (f := Except.ok (ε := Fault)) himage
  rw [← heq] at hok
  obtain ⟨e, he, hresult⟩ := List.mem_map.mp hok
  exact ⟨e, he, image, hresult, hmem⟩

end ImagesHold

section MapExpressions

variable {f : Expression → Evaluation Value}

mutual

theorem imagesHold_of_mapExpressions : ∀ (value : Value) {image : Value},
    (value.mapExpressions f).result = .ok image →
      ImagesHold f value.expressions image.expressions
  | .null, _, h | .bool _, _, h | .number _, _, h | .string _, _, h => by
    obtain rfl := Except.ok.inj h
    exact .nil
  | .expression e, image, h => by
    have hresult : (f e).result = .ok image := h
    exact ⟨[image], congrArg ([·]) hresult, List.flatMap_singleton _ _⟩
  | .list items, _, h => by
    obtain ⟨images, himages, hreturn⟩ := Evaluation.result_bind_eq_ok.mp h
    obtain rfl := Except.ok.inj hreturn
    rw [expressions_list, expressions_list]
    exact imagesHold_of_mapList items himages
  | .object fields, _, h => by
    obtain ⟨images, himages, hreturn⟩ := Evaluation.result_bind_eq_ok.mp h
    obtain rfl := Except.ok.inj hreturn
    rw [expressions_object, expressions_object]
    exact imagesHold_of_mapFields fields himages
termination_by structural v => v

theorem imagesHold_of_mapList : ∀ (items : List Value) {images : List Value},
    (mapList f items).result = .ok images →
      ImagesHold f (items.flatMap expressions) (images.flatMap expressions)
  | [], _, h => by
    obtain rfl := Except.ok.inj h
    exact .nil
  | item :: items, _, h => by
    obtain ⟨image, himage, hrest⟩ := Evaluation.result_bind_eq_ok.mp h
    obtain ⟨images, himages, hreturn⟩ := Evaluation.result_bind_eq_ok.mp hrest
    obtain rfl := Except.ok.inj hreturn
    exact (imagesHold_of_mapExpressions item himage).append (imagesHold_of_mapList items himages)
termination_by structural v => v

theorem imagesHold_of_mapFields : ∀ (fields : List (String × Value))
    {images : List (String × Value)}, (mapFields f fields).result = .ok images →
      ImagesHold f (fields.flatMap fun field => field.2.expressions)
        (images.flatMap fun field => field.2.expressions)
  | [], _, h => by
    obtain rfl := Except.ok.inj h
    exact .nil
  | (_, value) :: fields, _, h => by
    obtain ⟨image, himage, hrest⟩ := Evaluation.result_bind_eq_ok.mp h
    obtain ⟨images, himages, hreturn⟩ := Evaluation.result_bind_eq_ok.mp hrest
    obtain rfl := Except.ok.inj hreturn
    exact (imagesHold_of_mapExpressions value himage).append
      (imagesHold_of_mapFields fields himages)
termination_by structural v => v

end

end MapExpressions

end Value

/-! ## Dictionaries -/

namespace Dict

variable {f : String → Value → Checked Value} {dict image : Dict}

/-- An entry with its value replaced by the image; where it comes from stays. -/
def imageOf (f : String → Value → Checked Value) (name : String) (entry : Entry) : Checked Entry :=
  (f name entry.value).map fun value => { entry with value := value }

/-- The images of some fields, put into a dictionary one after the other. -/
theorem find?_of_foldlM {fields : Fields Entry} {start : Dict}
    (hnodup : (Fields.names fields).Nodup)
    (h : fields.foldlM (fun (result : Dict) (name, entry) => do
      let value ← f name entry.value
      return result.setEntry name { entry with value := value }) start = .ok image)
    (name : String) :
    Option.map Except.ok (image.find? name)
      = (Option.map (imageOf f name) (fields.find? name)).or
        (Option.map Except.ok (start.find? name)) := by
  induction fields generalizing start with
  | nil =>
    obtain rfl := Except.ok.inj h
    rfl
  | cons field fields ih =>
    obtain ⟨other, entry⟩ := field
    obtain ⟨hfresh, hnodup⟩ := List.nodup_cons.mp hnodup
    rw [List.foldlM_cons] at h
    obtain ⟨next, hnext, hlast⟩ := Checked.bind_eq_ok.mp h
    obtain ⟨value, hvalue, hreturn⟩ := Checked.bind_eq_ok.mp hnext
    obtain rfl := Except.ok.inj hreturn
    rw [ih hnodup hlast, Fields.find?]
    by_cases hname : name = other
    · subst hname
      have hnone : Fields.find? name fields = none :=
        Option.not_isSome_iff_eq_none.mp (mt Fields.find?_isSome.mp hfresh)
      have himage : imageOf f name entry = .ok { entry with value := value } := by
        rw [imageOf, hvalue]
        rfl
      rw [if_pos rfl, hnone, find?_setEntry_self]
      exact congrArg some himage.symm
    · rw [if_neg hname, find?_setEntry_of_ne hname]

/-- What a dictionary is mapped to, name by name. -/
theorem find?_of_mapValues (h : dict.mapValues f = .ok image) (name : String) :
    Option.map (imageOf f name) (dict.find? name) = Option.map Except.ok (image.find? name) := by
  rw [find?_of_foldlM dict.entries.nodup_keys h name]
  exact (Option.or_none).symm

/-- An entry has its value mapped and stays where it was. -/
theorem exists_entry_of_mapValues (h : dict.mapValues f = .ok image) {name : String} {entry : Entry}
    (hentry : dict.find? name = some entry) : ∃ value, f name entry.value = .ok value
      ∧ image.find? name = some { entry with value := value } := by
  have hat := find?_of_mapValues h name
  rw [hentry] at hat
  obtain ⟨found, hfound, hok⟩ := Option.map_eq_some_iff.mp hat.symm
  cases hvalue : f name entry.value with
  | error fault =>
    rw [imageOf, hvalue] at hok
    exact absurd hok nofun
  | ok value =>
    rw [imageOf, hvalue] at hok
    exact ⟨value, rfl, hfound.trans (congrArg some (Except.ok.inj hok))⟩

theorem get_of_mapValues (h : dict.mapValues f = .ok image) {name : String}
    (hname : dict.has name) :
    f name (dict.get name) = .ok (image.get name) := by
  obtain ⟨entry, hentry⟩ := SortedMap.contains_iff_exists.mp hname
  have hentry : dict.find? name = some entry := hentry
  obtain ⟨value, hvalue, himage⟩ := exists_entry_of_mapValues h hentry
  rw [get, get, hentry, himage]
  exact hvalue

theorem has_of_mapValues (h : dict.mapValues f = .ok image) {name : String}
    (hname : image.has name) : dict.has name := by
  have hat := congrArg Option.isSome (find?_of_mapValues h name)
  rw [Option.isSome_map, Option.isSome_map] at hat
  exact hat.trans hname

/-- The image of a dictionary with one value. -/
theorem mapValues_single {m : Type → Type} [Monad m] [LawfulMonad m] (f : String → Value → m Value)
    (name : String) (value : Value) :
    (ofValues (.ofList [(name, value)])).mapValues f
      = f name value >>= fun image => pure (ofValues (.ofList [(name, image)])) := by
  have hentries : (ofValues (.ofList [(name, value)])).entries.toList = [(name, ⟨value, []⟩)] := rfl
  rw [mapValues, hentries, List.foldlM_cons]
  simp only [List.foldlM_nil, bind_assoc, pure_bind]
  rfl

end Dict

end ClusterBlueprint
