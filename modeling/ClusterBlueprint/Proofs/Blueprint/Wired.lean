import ClusterBlueprint.Proofs.Blueprint.Checks

/-!
Blueprints whose references all lead somewhere.

The checks establish it.  A pass keeps it if the settings that it writes refer to variables there
are, or to outputs of modules that may be referred to; so a pass is judged module by module.
-/

namespace ClusterBlueprint

namespace Blueprint

/-- The references of a blueprint lead somewhere, those of its settings and those of its uses. -/
structure Wired (bp : Blueprint) (catalog : Catalog) : Prop where
  same : ∀ {i j module other}, bp.Placed i module → bp.Placed j other → module.id = other.id →
    module.source = other.source ∧ module.kind = other.kind
  uses : ∀ {i module}, bp.Placed i module → ∀ used ∈ module.uses,
    ∃ target, bp.Reaches i target ∧ target.id = used
  settings : ∀ {i module}, bp.Placed i module → module.settings.RefersBy (bp.Leads catalog i)

section Wired

variable {bp out : Blueprint} {catalog : Catalog}

theorem wired_of_checks (hstructure : Structure.check bp catalog = .ok ())
    (hreferences : References.check bp catalog = .ok ()) : bp.Wired catalog := by
  have hids := Structure.nodup_moduleIds hstructure
  have hlead := (References.check_eq_ok hids).mp hreferences
  refine ⟨fun hmodule hother hid => ?_, fun hmodule => (hlead _ _ hmodule).1,
    fun hmodule => (hlead _ _ hmodule).2⟩
  obtain ⟨-, rfl⟩ := eq_of_nodup_moduleIds hids hmodule hother hid
  exact ⟨rfl, rfl⟩

/-! ## Passes -/

theorem Leads.mono {i : Nat} {reference : Reference} (h : bp.Leads catalog i reference)
    (hvars : ∀ name, bp.vars.has name → out.vars.has name)
    (hforth : ∀ {j original}, bp.Placed j original → ∃ module, out.Placed j module
      ∧ module.id = original.id ∧ module.source = original.source ∧ module.kind = original.kind) :
    out.Leads catalog i reference := by
  cases reference with
  | global name => exact hvars name h
  | output group id output =>
    obtain ⟨target, interface, ⟨⟨j, hle, hplaced⟩, hkind⟩, rfl, hinterface, houtput⟩ := h
    obtain ⟨image, himage, hid, hsource, hsame⟩ := hforth hplaced
    refine ⟨image, interface, ⟨⟨j, hle, himage⟩, hsame ▸ hkind⟩, hid, ?_, houtput⟩
    rw [hsource, hsame, hinterface]

/-- A pass that writes settings whose references lead somewhere. -/
theorem Wired.mapped {f : Location → Module → Checked Module} (h : bp.Wired catalog)
    (hmap : bp.mapModules f = .ok out)
    (hf : ∀ {i place original module}, bp.Placed i original → f place original = .ok module →
      ∃ settings, module = { original with settings } ∧ settings.RefersBy (bp.Leads catalog i)) :
    out.Wired catalog := by
  have hpass := mapped_of_mapModules hmap
  -- Only settings change, so what the invariant says of the other modules is carried both ways.
  have hforth : ∀ {j original}, bp.Placed j original → ∃ module, out.Placed j module
      ∧ module.id = original.id ∧ module.source = original.source
      ∧ module.kind = original.kind := by
    intro j original horiginal
    obtain ⟨place, module, hmodule, hread⟩ := hpass.forth horiginal
    obtain ⟨settings, rfl, -⟩ := hf horiginal hread
    exact ⟨_, hmodule, rfl, rfl, rfl⟩
  have hback : ∀ {i module}, out.Placed i module → ∃ original settings, bp.Placed i original
      ∧ module = { original with settings } ∧ settings.RefersBy (bp.Leads catalog i) := by
    intro i module hmodule
    obtain ⟨place, original, horiginal, hread⟩ := hpass.back hmodule
    obtain ⟨settings, heq, hrefers⟩ := hf horiginal hread
    exact ⟨original, settings, horiginal, heq, hrefers⟩
  refine ⟨fun hmodule hother hid => ?_, fun hmodule used hused => ?_, fun hmodule => ?_⟩
  · obtain ⟨original, _, horiginal, rfl, -⟩ := hback hmodule
    obtain ⟨second, _, hsecond, rfl, -⟩ := hback hother
    have hsame := h.same horiginal hsecond hid
    exact hsame
  · obtain ⟨original, _, horiginal, rfl, -⟩ := hback hmodule
    obtain ⟨target, ⟨⟨j, hle, htarget⟩, hkind⟩, hid⟩ := h.uses horiginal used hused
    obtain ⟨image, himage, himageId, -, hsame⟩ := hforth htarget
    exact ⟨image, ⟨⟨j, hle, himage⟩, hsame ▸ hkind⟩, himageId.trans hid⟩
  · obtain ⟨original, settings, -, rfl, hrefers⟩ := hback hmodule
    have hvars : ∀ name, bp.vars.has name → out.vars.has name := fun _ => hpass.vars.symm ▸ id
    exact fun name reference href => (hrefers name reference href).mono hvars hforth

/-- A pass that leaves the modules as they are and keeps the variables. -/
theorem Wired.of_placed (h : bp.Wired catalog)
    (hplaced : ∀ i module, out.Placed i module ↔ bp.Placed i module)
    (hvars : ∀ name, bp.vars.has name → out.vars.has name) : out.Wired catalog := by
  refine ⟨fun hmodule hother => h.same ((hplaced _ _).mp hmodule) ((hplaced _ _).mp hother),
    fun hmodule used hused => ?_, fun hmodule name reference href => ?_⟩
  · obtain ⟨target, ⟨⟨j, hle, htarget⟩, hkind⟩, hid⟩ := h.uses ((hplaced _ _).mp hmodule) used hused
    exact ⟨target, ⟨⟨j, hle, (hplaced _ _).mpr htarget⟩, hkind⟩, hid⟩
  · refine (h.settings ((hplaced _ _).mp hmodule) name reference href).mono hvars ?_
    exact fun horiginal => ⟨_, (hplaced _ _).mpr horiginal, rfl, rfl, rfl⟩

end Wired

end Blueprint

end ClusterBlueprint
