import ClusterBlueprint.Proofs.Evaluation.Expressed
import ClusterBlueprint.Proofs.Literal.Escaped
import ClusterBlueprint.Proofs.Literal.Read
import ClusterBlueprint.Proofs.Number.Rounding
import ClusterBlueprint.Proofs.SortedMap
import ClusterBlueprint.Value.Document

/-!
Values written as data and read again.

Reading gives values of one form: their numbers are numbers, their fields are in order, and their
expressions come from texts.  Such a value is read back from what it is written as if each text in
it is kept and each expression in it is read back from its canonical text.
-/

namespace ClusterBlueprint

/-! ## The single data in some data -/

namespace Node

mutual

def scalars : Node → List Scalar
  | scalar value => [value]
  | sequence items => itemsScalars items
  | mapping entries => entriesScalars entries
  | tagged _ content => content.scalars
termination_by structural n => n

def itemsScalars : List Node → List Scalar
  | [] => []
  | item :: rest => item.scalars ++ itemsScalars rest
termination_by structural n => n

def entriesScalars : List (Node × Node) → List Scalar
  | [] => []
  | (_, value) :: rest => value.scalars ++ entriesScalars rest
termination_by structural n => n

end

end Node

namespace Value

/-! ## Values that were read -/

/-- What reading gives: numbers, fields in order, and expressions that some text stands for. -/
def IsRead : Value → Prop
  | number x => x ≠ .nan
  | object fields => Fields.Ordered fields
  | expression e => ∃ s, Literal.read s = .ok (.expression e)
  | _ => True

theorem isRead_of_read {s : String} {v : Value} (h : Literal.read s = .ok v) :
    ∀ node ∈ v.nodes, node.IsRead := by
  rcases Literal.read_cases h with ⟨text, rfl⟩ | ⟨e, rfl⟩
  · exact List.forall_mem_singleton.mpr trivial
  · exact List.forall_mem_singleton.mpr ⟨s, h⟩

theorem mem_fieldsNodes {fields : Fields Value} {node : Value} :
    node ∈ fieldsNodes fields ↔ ∃ field ∈ fields, node ∈ field.2.nodes := by
  induction fields with
  | nil => simp [fieldsNodes]
  | cons field fields ih => simp [fieldsNodes, ih]

mutual

theorem isRead_of_ofNode : ∀ (y : Node) {v : Value}, (∀ x, .float x ∈ y.scalars → x ≠ .nan) →
    ofNode y = .ok v → ∀ node ∈ v.nodes, node.IsRead
  | .scalar .null, _, _, h | .scalar (.bool _), _, _, h => by
    obtain rfl := Except.ok.inj h
    exact List.forall_mem_singleton.mpr trivial
  | .scalar (.integer n), _, _, h => by
    obtain rfl := Except.ok.inj h
    exact List.forall_mem_singleton.mpr nofun
  | .scalar (.float x), _, hnumbers, h => by
    obtain rfl := Except.ok.inj h
    exact List.forall_mem_singleton.mpr (hnumbers x List.mem_cons_self)
  | .scalar (.text s), _, _, h => isRead_of_read h
  | .sequence items, _, hnumbers, h => by
    obtain ⟨values, hvalues, heq⟩ := Checked.bind_eq_ok.mp h
    obtain rfl := Except.ok.inj heq
    exact List.forall_mem_cons.mpr ⟨trivial, isRead_of_ofItems items hnumbers hvalues⟩
  | .mapping entries, _, hnumbers, h => by
    obtain ⟨fields, hfields, heq⟩ := Checked.bind_eq_ok.mp h
    obtain rfl := Except.ok.inj heq
    exact List.forall_mem_cons.mpr
      (isRead_of_ofEntries entries hnumbers hfields .nil (List.forall_mem_nil _))
  | .tagged _ content, _, hnumbers, h => isRead_of_ofNode content hnumbers h
termination_by structural y => y

theorem isRead_of_ofItems : ∀ (items : List Node) {values : List Value},
    (∀ x, .float x ∈ Node.itemsScalars items → x ≠ .nan) → ofItems items = .ok values →
      ∀ node ∈ listNodes values, node.IsRead
  | [], _, _, h => by
    obtain rfl := Except.ok.inj h
    exact List.forall_mem_nil _
  | item :: items, _, hnumbers, h => by
    obtain ⟨value, hvalue, h⟩ := Checked.bind_eq_ok.mp h
    obtain ⟨values, hvalues, heq⟩ := Checked.bind_eq_ok.mp h
    obtain rfl := Except.ok.inj heq
    exact List.forall_mem_append.mpr
      ⟨isRead_of_ofNode item (fun x hx => hnumbers x (List.mem_append_left _ hx)) hvalue,
        isRead_of_ofItems items (fun x hx => hnumbers x (List.mem_append_right _ hx)) hvalues⟩
termination_by structural items => items

-- The fields so far are in order and of the form, whatever name comes next.
theorem isRead_of_ofEntries : ∀ (entries : List (Node × Node)) {before fields : Fields Value},
    (∀ x, .float x ∈ Node.entriesScalars entries → x ≠ .nan) →
      ofEntries before entries = .ok fields → before.Ordered →
        (∀ node ∈ fieldsNodes before, node.IsRead) →
          fields.Ordered ∧ ∀ node ∈ fieldsNodes fields, node.IsRead
  | [], _, _, _, h, hordered, hbefore => by
    obtain rfl := Except.ok.inj h
    exact ⟨hordered, hbefore⟩
  | (.scalar (.text name), content) :: entries, before, _, hnumbers, h, hordered, hbefore => by
    obtain ⟨value, hvalue, h⟩ := Checked.bind_eq_ok.mp h
    have hread := isRead_of_ofNode content
      (fun x hx => hnumbers x (List.mem_append_left _ hx)) hvalue
    refine isRead_of_ofEntries entries (fun x hx => hnumbers x (List.mem_append_right _ hx)) h
      (hordered.put name value) fun node hnode => ?_
    obtain ⟨field, hfield, hnode⟩ := mem_fieldsNodes.mp hnode
    rcases Fields.mem_put hfield with rfl | hold
    · exact hread node hnode
    · exact hbefore node (mem_fieldsNodes.mpr ⟨field, hold, hnode⟩)
  | (.scalar .null, _) :: _, _, _, _, h, _, _
  | (.scalar (.bool _), _) :: _, _, _, _, h, _, _
  | (.scalar (.integer _), _) :: _, _, _, _, h, _, _
  | (.scalar (.float _), _) :: _, _, _, _, h, _, _
  | (.sequence _, _) :: _, _, _, _, h, _, _
  | (.mapping _, _) :: _, _, _, _, h, _, _
  | (.tagged _ _, _) :: _, _, _, _, h, _, _ => absurd h nofun
termination_by structural entries => entries

end

/-! ## Values that are read back -/

/-- Whether what a value is written as is read as an equal value. -/
def RoundTrips (v : Value) : Prop := ∃ w, ofNode v.toNode = .ok w ∧ (w == v) = true

/-- Whether a value is read back, apart from the values in it: a text if escaping keeps it, an
expression if its canonical text is read as an equal one. -/
def IsKept : Value → Prop
  | string s => Literal.IsKept s
  | expression e => ∃ e', Expression.parse e.text = .ok e' ∧ (e' == e) = true
  | _ => True

theorem roundTrips_number {x : Number} (h : x ≠ .nan) : (number x).RoundTrips := by
  unfold RoundTrips
  rw [toNode, numberScalar]
  split
  · next n hshort =>
    obtain ⟨hint, -⟩ := Option.filter_eq_some_iff.mp hshort
    exact ⟨number (.ofInt n), rfl, Number.ofInt_eq_of_toInt? hint⟩
  · exact ⟨number x, rfl, Number.eq_self h⟩

theorem roundTrips_string (s : String) : (string s).RoundTrips ↔ (string s).IsKept := by
  have hread := Literal.read_escape_eq_restored s
  rw [IsKept, ← Literal.restored_eq_self]
  constructor
  · rintro ⟨w, hw, heq⟩
    obtain rfl := Except.ok.inj (hread.symm.trans hw)
    exact beq_iff_eq.mp heq
  · intro heq
    rw [heq] at hread
    exact ⟨string s, hread, beq_self_eq_true s⟩

theorem roundTrips_expression (e : Expression) :
    (expression e).RoundTrips ↔ (expression e).IsKept := by
  unfold RoundTrips
  rw [toNode, show ofNode (.text ("((" ++ e.text ++ "))")) = _ from Literal.read_source e.text]
  constructor
  · rintro ⟨w, hw, heq⟩
    cases hparse : Expression.parse e.text with
    | error fault => exact absurd (hparse ▸ hw) nofun
    | ok e' =>
      rw [hparse] at hw
      obtain rfl := Except.ok.inj hw
      exact ⟨e', hparse, heq⟩
  · rintro ⟨e', hparse, heq⟩
    rw [hparse]
    exact ⟨expression e', rfl, heq⟩

theorem ofItems_toNodes (items : List Value) :
    (∃ values, ofItems (toNodes items) = .ok values ∧ listEqual values items = true)
      ↔ ∀ item ∈ items, item.RoundTrips := by
  induction items with
  | nil => exact iff_of_true ⟨[], rfl, rfl⟩ (List.forall_mem_nil _)
  | cons item items ih =>
    rw [List.forall_mem_cons, ← ih, toNodes, ofItems]
    constructor
    · rintro ⟨values, hread, hequal⟩
      obtain ⟨w, hw, hread⟩ := Checked.bind_eq_ok.mp hread
      obtain ⟨ws, hws, heq⟩ := Checked.bind_eq_ok.mp hread
      obtain rfl := Except.ok.inj heq
      obtain ⟨hfirst, hrest⟩ := Bool.and_eq_true_iff.mp hequal
      exact ⟨⟨w, hw, hfirst⟩, ws, hws, hrest⟩
    · rintro ⟨⟨w, hw, hfirst⟩, ws, hws, hrest⟩
      exact ⟨w :: ws, Checked.bind_eq_ok.mpr ⟨w, hw, Checked.bind_eq_ok.mpr ⟨ws, hws, rfl⟩⟩,
        Bool.and_eq_true_iff.mpr ⟨hfirst, hrest⟩⟩

theorem roundTrips_list (items : List Value) :
    (list items).RoundTrips ↔ ∀ item ∈ items, item.RoundTrips := by
  rw [← ofItems_toNodes]
  constructor
  · rintro ⟨w, hw, heq⟩
    obtain ⟨values, hvalues, hlist⟩ := Checked.bind_eq_ok.mp hw
    obtain rfl := Except.ok.inj hlist
    exact ⟨values, hvalues, heq⟩
  · rintro ⟨values, hvalues, heq⟩
    exact ⟨list values, Checked.bind_eq_ok.mpr ⟨values, hvalues, rfl⟩, heq⟩

def rereadFields (fields : Fields Value) : Checked (Fields Value) :=
  fields.mapM fun field => do return (field.1, ← ofNode field.2.toNode)

/-- Fields in order are read after those before them. -/
theorem ofEntries_toEntries {fields : Fields Value} (hordered : fields.Ordered)
    {before : Fields Value} (hbefore : ∀ a ∈ before, ∀ b ∈ fields, a.1 < b.1) :
    ofEntries before (toEntries fields) = (rereadFields fields).map (before ++ ·) := by
  induction fields generalizing before with
  | nil => exact congrArg Except.ok (List.append_nil before).symm
  | cons field fields ih =>
    obtain ⟨name, value⟩ := field
    obtain ⟨hhead, hordered⟩ := List.pairwise_cons.mp hordered
    rw [toEntries, Node.text, ofEntries, rereadFields, List.mapM_cons]
    cases ofNode value.toNode with
    | error fault => rfl
    | ok w =>
      have hput : before.put name w = before ++ [(name, w)] :=
        Fields.put_of_after (fun a ha => hbefore a ha _ List.mem_cons_self) w
      have hafter : ∀ a ∈ before ++ [(name, w)], ∀ b ∈ fields, a.1 < b.1 := by
        intro a ha b hb
        rcases List.mem_append.mp ha with ha | ha
        · exact hbefore a ha b (List.mem_cons_of_mem _ hb)
        · rw [List.mem_singleton.mp ha]
          exact hhead b hb
      show ofEntries (before.put name w) (toEntries fields)
        = ((rereadFields fields >>= fun read => .ok ((name, w) :: read)).map (before ++ ·))
      rw [hput, ih hordered hafter]
      cases rereadFields fields with
      | error fault => rfl
      | ok read => exact congrArg Except.ok (List.append_assoc before [(name, w)] read)

theorem rereadFields_equal (fields : Fields Value) :
    (∃ read, rereadFields fields = .ok read ∧ fieldsEqual read fields = true)
      ↔ ∀ field ∈ fields, field.2.RoundTrips := by
  induction fields with
  | nil => exact iff_of_true ⟨[], rfl, rfl⟩ (List.forall_mem_nil _)
  | cons field fields ih =>
    rw [List.forall_mem_cons, ← ih, rereadFields, List.mapM_cons]
    constructor
    · rintro ⟨read, hread, hequal⟩
      obtain ⟨entry, hentry, hread⟩ := Checked.bind_eq_ok.mp hread
      obtain ⟨w, hw, heq⟩ := Checked.bind_eq_ok.mp hentry
      obtain rfl := Except.ok.inj heq
      obtain ⟨more, hmore, heq⟩ := Checked.bind_eq_ok.mp hread
      obtain rfl := Except.ok.inj heq
      obtain ⟨hfirst, hrest⟩ := Bool.and_eq_true_iff.mp hequal
      exact ⟨⟨w, hw, (Bool.and_eq_true_iff.mp hfirst).2⟩, more, hmore, hrest⟩
    · rintro ⟨⟨w, hw, hfirst⟩, more, hmore, hrest⟩
      refine ⟨(field.1, w) :: more, ?_, ?_⟩
      · exact Checked.bind_eq_ok.mpr ⟨(field.1, w), Checked.bind_eq_ok.mpr ⟨w, hw, rfl⟩,
          Checked.bind_eq_ok.mpr ⟨more, hmore, rfl⟩⟩
      · exact Bool.and_eq_true_iff.mpr
          ⟨Bool.and_eq_true_iff.mpr ⟨beq_self_eq_true field.1, hfirst⟩, hrest⟩

theorem roundTrips_object {fields : Fields Value} (hordered : fields.Ordered) :
    (object fields).RoundTrips ↔ ∀ field ∈ fields, field.2.RoundTrips := by
  have hread : ofEntries [] (toEntries fields) = rereadFields fields := by
    rw [ofEntries_toEntries hordered (List.forall_mem_nil _)]
    cases rereadFields fields <;> rfl
  rw [← rereadFields_equal, ← hread]
  constructor
  · rintro ⟨w, hw, heq⟩
    obtain ⟨read, hfields, hobject⟩ := Checked.bind_eq_ok.mp hw
    obtain rfl := Except.ok.inj hobject
    exact ⟨read, hfields, heq⟩
  · rintro ⟨read, hfields, heq⟩
    exact ⟨object read, Checked.bind_eq_ok.mpr ⟨read, hfields, rfl⟩, heq⟩

mutual

theorem roundTrips_iff_kept : ∀ v : Value, (∀ node ∈ v.nodes, node.IsRead) →
    (v.RoundTrips ↔ ∀ node ∈ v.nodes, node.IsKept)
  | .null, _ => iff_of_true ⟨null, rfl, rfl⟩ (List.forall_mem_singleton.mpr trivial)
  | .bool b, _ =>
    iff_of_true ⟨bool b, rfl, beq_self_eq_true b⟩ (List.forall_mem_singleton.mpr trivial)
  | .number x, h =>
    iff_of_true (roundTrips_number (h _ List.mem_cons_self)) (List.forall_mem_singleton.mpr trivial)
  | .string s, _ => (roundTrips_string s).trans List.forall_mem_singleton.symm
  | .expression e, _ => (roundTrips_expression e).trans List.forall_mem_singleton.symm
  | .list items, h => by
    rw [roundTrips_list, roundTrips_iff_listNodes items (List.forall_mem_cons.mp h).2]
    exact ⟨fun hnodes => List.forall_mem_cons.mpr ⟨trivial, hnodes⟩,
      fun hnodes => (List.forall_mem_cons.mp hnodes).2⟩
  | .object fields, h => by
    obtain ⟨hordered, hfields⟩ := List.forall_mem_cons.mp h
    rw [roundTrips_object hordered, roundTrips_iff_fieldsNodes fields hfields]
    exact ⟨fun hnodes => List.forall_mem_cons.mpr ⟨trivial, hnodes⟩,
      fun hnodes => (List.forall_mem_cons.mp hnodes).2⟩

theorem roundTrips_iff_listNodes : ∀ items : List Value,
    (∀ node ∈ listNodes items, node.IsRead) →
      ((∀ item ∈ items, item.RoundTrips) ↔ ∀ node ∈ listNodes items, node.IsKept)
  | [], _ => iff_of_true (List.forall_mem_nil _) (List.forall_mem_nil _)
  | item :: items, h => by
    obtain ⟨hitem, hitems⟩ := List.forall_mem_append.mp h
    rw [List.forall_mem_cons, roundTrips_iff_kept item hitem, roundTrips_iff_listNodes items hitems]
    exact List.forall_mem_append.symm

theorem roundTrips_iff_fieldsNodes : ∀ fields : List (String × Value),
    (∀ node ∈ fieldsNodes fields, node.IsRead) →
      ((∀ field ∈ fields, field.2.RoundTrips) ↔ ∀ node ∈ fieldsNodes fields, node.IsKept)
  | [], _ => iff_of_true (List.forall_mem_nil _) (List.forall_mem_nil _)
  | (name, value) :: fields, h => by
    obtain ⟨hvalue, hfields⟩ := List.forall_mem_append.mp h
    rw [List.forall_mem_cons, roundTrips_iff_kept value hvalue,
      roundTrips_iff_fieldsNodes fields hfields]
    exact List.forall_mem_append.symm

end

theorem forall_isKept {v : Value} :
    (∀ node ∈ v.nodes, node.IsKept)
      ↔ (∀ s, .string s ∈ v.nodes → Literal.IsKept s)
        ∧ ∀ e, .expression e ∈ v.nodes →
          ∃ e', Expression.parse e.text = .ok e' ∧ (e' == e) = true := by
  constructor
  · exact fun h => ⟨fun s hs => h _ hs, fun e he => h _ he⟩
  · rintro ⟨hstrings, hexpressions⟩ node hnode
    cases node with
    | string s => exact hstrings s hnode
    | expression e => exact hexpressions e hnode
    | _ => trivial

theorem parse_of_isRead {e : Expression} (h : (expression e).IsRead)
    (hcanonical : e.term.Canonical) : Expression.parse e.text = .ok e := by
  obtain ⟨s, hread⟩ := h
  exact Expression.parse_text_eq_ok.mpr ⟨hcanonical, Literal.isWellReferenced_of_read hread⟩

/-- An expression without a dollar before an interpolation is read back if the name in place of
infinity is where a name can stand, and all words are identifiers. -/
theorem isKept_of_isRead {e : Expression} (h : (expression e).IsRead)
    (hdollar : e.HasNoOpenDollar) :
    (expression e).IsKept
      ↔ e.term.named.Canonical ∧ (⟨e.term.named⟩ : Expression).IsWellReferenced := by
  obtain ⟨s, hread⟩ := h
  have hwritten := Literal.isWritten_of_read hread hdollar
  constructor
  · rintro ⟨e', hparse, -⟩
    exact (hwritten.parse_eq_ok.mp hparse).2
  · intro hnamed
    refine ⟨⟨e.term.named⟩, hwritten.parse_eq_ok.mpr ⟨rfl, hnamed⟩, ?_⟩
    show (e.term.named.text == e.term.text) = true
    rw [Term.text_named, beq_self_eq_true]

/-- What data stand for is read back from what it is written as if escaping keeps its texts and its
expressions are read back from their canonical texts, and only then.  Canonical expressions are. -/
theorem roundTrips_of_ofNode {y : Node} {v : Value}
    (hfinite : ∀ x, .float x ∈ y.scalars → x.isFinite) (h : ofNode y = .ok v) :
    (v.RoundTrips ↔ (∀ s, .string s ∈ v.nodes → Literal.IsKept s)
        ∧ ∀ e, .expression e ∈ v.nodes →
          ∃ e', Expression.parse e.text = .ok e' ∧ (e' == e) = true)
      ∧ ∀ e, .expression e ∈ v.nodes →
        (e.term.Canonical → Expression.parse e.text = .ok e)
          ∧ (e.HasNoOpenDollar →
            ((∃ e', Expression.parse e.text = .ok e' ∧ (e' == e) = true)
              ↔ e.term.named.Canonical ∧ (⟨e.term.named⟩ : Expression).IsWellReferenced)) := by
  have hread := isRead_of_ofNode y (fun x hx => Number.ne_nan_of_isFinite (hfinite x hx)) h
  refine ⟨?_, fun e he => ⟨parse_of_isRead (hread _ he), isKept_of_isRead (hread _ he)⟩⟩
  rw [roundTrips_iff_kept v hread, forall_isKept]

theorem roundTrips_of_ofNode_of_note :
    let y : Node := .sequence [.scalar (.float .zero), .text "((var.x))", .text "note"]
    let v : Value := list [number .zero, .ofReference (.global "x"), string "note"]
    (∀ x, .float x ∈ y.scalars → x.isFinite) ∧ ofNode y = .ok v ∧ v.RoundTrips := by
  intro y v
  have hfinite : ∀ x, .float x ∈ y.scalars → x.isFinite := by
    intro x hx
    obtain rfl : x = .zero := by simpa [y, Node.scalars, Node.itemsScalars, Node.text] using hx
    decide
  have hcanonical : (Reference.global "x").toTerm.Canonical := ⟨by decide, by decide, trivial⟩
  have hreference : Literal.read "((var.x))" = .ok (.ofReference (.global "x")) := by
    have hparse : Expression.parse (Expression.ofReference (.global "x")).text
        = .ok (.ofReference (.global "x")) := Expression.parse_text_eq_ok.mpr
      ⟨hcanonical, isWellReferenced_ofReference (.global "x") _ List.mem_cons_self⟩
    show Literal.read ("((" ++ (Expression.ofReference (.global "x")).text ++ "))") = _
    rw [Literal.read_source, hparse]
    rfl
  have hnote : Literal.read "note" = .ok (.string "note") :=
    Literal.read_of_plain (by decide) (by decide) rfl
  have hlast : ofItems [.text "note"] = .ok [string "note"] :=
    Checked.bind_eq_ok.mpr ⟨_, hnote, rfl⟩
  have hrest : ofItems [.text "((var.x))", .text "note"]
      = .ok [.ofReference (.global "x"), string "note"] :=
    Checked.bind_eq_ok.mpr ⟨_, hreference, Checked.bind_eq_ok.mpr ⟨_, hlast, rfl⟩⟩
  have hitems : ofItems [.scalar (.float .zero), .text "((var.x))", .text "note"]
      = .ok [number .zero, .ofReference (.global "x"), string "note"] :=
    Checked.bind_eq_ok.mpr ⟨_, rfl, Checked.bind_eq_ok.mpr ⟨_, hrest, rfl⟩⟩
  have hread : ofNode y = .ok v := Checked.bind_eq_ok.mpr ⟨_, hitems, rfl⟩
  have hback := roundTrips_of_ofNode hfinite hread
  refine ⟨hfinite, hread, hback.1.mpr ⟨fun s hs => ?_, fun e he => ?_⟩⟩
  · obtain rfl : s = "note" := by simpa [v, nodes, listNodes, ofReference] using hs
    show Literal.IsKept "note"
    decide
  · have hparse := (hback.2 e he).1
    obtain rfl : e = .ofReference (.global "x") := by
      simpa [v, nodes, listNodes, ofReference] using he
    exact ⟨_, hparse hcanonical, beq_self_eq_true (Expression.ofReference (.global "x")).text⟩

/-- A text loses one of the two carriage returns at its end, and the other when it is read again. -/
theorem not_roundTrips_of_ofNode :
    let y : Node := .text "a\r\r"
    (∀ x, .float x ∈ y.scalars → x.isFinite) ∧ ofNode y = .ok (string "a\r")
      ∧ ¬ (string "a\r").RoundTrips := by
  intro y
  refine ⟨fun x hx => ?_, ?_, ?_⟩
  · exact absurd (List.mem_singleton.mp hx) nofun
  · exact Literal.read_of_plain (by decide) (by decide) rfl
  · rw [roundTrips_string]
    show ¬ Literal.IsKept "a\r"
    decide

end Value

end ClusterBlueprint
