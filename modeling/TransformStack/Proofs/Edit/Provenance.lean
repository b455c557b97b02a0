import TransformStack.Proofs.Edit.Transaction

/-!
# Where authored values come from

What is authored in a store was there at first, or somebody put it there since. Taking a write back
puts values there again, those that were noted before the write. So whoever vouches for all that is
authored and for all that is noted vouches for everything that a journal, a transaction or a
rollback can author.
-/

namespace TransformStack

/-- A source of values: which values it may author in which attribute of which entity, and at which
time. -/
abbrev Source := EntityId → String → TimeCode → Value → Prop

/-- What is authored in an attribute after everything at the time of the value that does not vary
was replaced. -/
theorem Attribute.cell?_setFixed {a : Attribute} {time : TimeCode} {c : Option Cell} {cell : Cell}
    (h : (a.setCell c .default).cell? time = some cell) :
    a.cell? time = some cell ∨ time = .default ∧ c = some cell := by
  cases time with
  | default => exact .inr ⟨rfl, h⟩
  | sample x => exact .inl h

/-! ## Stores -/

/-- Every value that is authored comes from the source. -/
def Store.From (P : Source) (s : Store) : Prop :=
  ∀ id name time value, s.authored? id name time = .ok (some value) → P id name time value

namespace Store

variable {P : Source} {s s' : Store} {id : EntityId} {name : String} {time : TimeCode}
  {value : Value}

/-- What is authored is what an attribute holds at the time. -/
theorem authored?_eq_some_iff :
    s.authored? id name time = .ok (some value) ↔
      ∃ a, s.find? id name = some a ∧ a.cell? time = some (.value value) := by
  rw [authored?, Cell.read?_eq_ok_iff]
  exact Option.bind_eq_some_iff

namespace From

/-- An attribute may be replaced by one in which nothing is authored but what was authored before or
comes from the source. -/
theorem alter (h : s.From P) {change : Option Attribute → Option Attribute}
    (hchange : ∀ a time value, change (s.find? id name) = some a →
      a.cell? time = some (.value value) →
      s.authored? id name time = .ok (some value) ∨ P id name time value) :
    (s.alter id name change).From P := by
  intro id' name' time value hauthored
  obtain ⟨a, ha, hcell⟩ := authored?_eq_some_iff.1 hauthored
  rw [find?_alter] at ha
  split at ha
  · next hat =>
    obtain ⟨rfl, rfl, -⟩ := hat
    exact (hchange a time value ha hcell).elim (h _ _ _ _) fun hvalue => hvalue
  · exact h _ _ _ _ (authored?_eq_some_iff.2 ⟨a, ha, hcell⟩)

/-- Declaring an attribute authors nothing. -/
theorem declare (h : s.From P) (type : ValueType) : (s.declare id name type).From P := by
  refine h.alter fun a time value ha hcell => .inl ?_
  cases hfound : s.find? id name with
  | some found =>
    rw [hfound] at ha
    cases ha
    exact authored?_eq_some_iff.2 ⟨found, hfound, hcell⟩
  | none =>
    rw [hfound] at ha
    cases ha
    cases time <;> simp [Attribute.ofType, Attribute.cell?] at hcell

/-- What is put into an attribute may come from the source. -/
theorem setFixed (h : s.From P) {c : Option Cell}
    (hc : ∀ value, c = some (.value value) → P id name .default value) :
    (s.alter id name (·.map (·.setCell c .default))).From P := by
  refine h.alter fun a time value ha hcell => ?_
  obtain ⟨found, hfound, rfl⟩ := Option.map_eq_some_iff.1 ha
  rcases Attribute.cell?_setFixed hcell with hcell | ⟨rfl, hc'⟩
  · exact .inl (authored?_eq_some_iff.2 ⟨found, hfound, hcell⟩)
  · exact .inr (hc value hc')

/-- Tokens that come from the source may be put into the order. -/
theorem putTokens (h : s.From P) {tokens : List String}
    (htokens : P id Op.orderName .default (.tokens tokens)) : (s.putTokens id tokens).From P := by
  -- The order attribute is declared if it is missing, and then its value is replaced.
  have hparts : (s.declare id Op.orderName .tokenArray).alter id Op.orderName
      (·.map (·.setCell (some (.value (.tokens tokens))) .default)) = s.putTokens id tokens :=
    alter_alter ..
  rw [← hparts]
  refine (h.declare .tokenArray).setFixed ?_
  rintro _ ⟨⟩
  exact htokens

/-- Adding an op authors tokens only. -/
theorem addOp (h : s.From P) (htokens : ∀ names, P id Op.orderName .default (.tokens names))
    {op : Op} (hadd : s.addOp id op = .ok (some s')) : s'.From P := by
  obtain ⟨-, -, -, tokens, -, -, -, rfl⟩ := addOp_eq_ok_iff.1 hadd
  exact (h.declare _).putTokens (htokens _)

/-- Setting the order authors tokens only. -/
theorem setOrder (h : s.From P) (htokens : ∀ names, P id Op.orderName .default (.tokens names))
    {order : OpOrder} (hset : s.setOrder id order = .ok (some s')) : s'.From P := by
  obtain ⟨-, -, -, rfl⟩ := setOrder_eq_ok_iff.1 hset
  exact h.putTokens (htokens _)

/-- A value from the source may be authored. -/
theorem setValue (h : s.From P) (hvalue : P id name .default value)
    (hset : s.setValue id name value .default = .ok (some s')) : s'.From P := by
  obtain ⟨-, -, -, -, -, -, -, rfl⟩ := setValue_eq_ok_iff.1 hset
  refine h.setFixed ?_
  rintro _ ⟨⟩
  exact hvalue

end From

end Store

/-! ## Edits -/

/-- What reverting an edit authors comes from the source, and does not vary with time. -/
def Edit.From (P : Source) : Edit → Prop
  | created _ _ => True
  | changed id name time previous =>
    time = .default ∧ ∀ value, previous = some value → P id name .default value

namespace Edit

variable {P : Source} {s s' : Store} {id : EntityId} {name : String} {edit : Edit}

/-- What is noted before a write comes from the source if all that is there does. -/
theorem from_of_before (h : s.From P) (hbefore : before s id name .default = .ok edit) :
    edit.From P := by
  rcases before_eq_ok_iff.1 hbefore with ⟨-, rfl⟩ | ⟨a, type, previous, ha, -, hprevious, rfl⟩
  · trivial
  · refine ⟨rfl, ?_⟩
    rintro value rfl
    exact h id name .default value (Store.authored?_eq_some_iff.2 ⟨a, ha, hprevious⟩)

/-- Reverting an edit from the source authors nothing else. -/
theorem From.revert (h : edit.From P) (hs : s.From P) (hrevert : edit.revert s = .ok (some s')) :
    s'.From P := by
  cases edit with
  | created id name =>
    rw [eq_alter_of_revert_created hrevert]
    refine hs.alter ?_
    rintro _ _ _ ⟨⟩
  | changed id name time previous =>
    obtain ⟨rfl, hprevious⟩ := h
    cases previous with
    | some value => exact hs.setValue (hprevious value rfl) hrevert
    | none =>
      rw [eq_alter_of_revert_changed hrevert]
      refine hs.setFixed ?_
      rintro _ ⟨⟩

end Edit

/-! ## Transactions -/

namespace Transaction

variable {P : Source} {tx : Transaction} {id : EntityId}

/-- What is authored in the store of a transaction comes from the source, and so does what taking
its writes back authors. -/
structure From (P : Source) (tx : Transaction) : Prop where
  store : tx.store.From P
  journal : ∀ edit ∈ tx.journal, edit.From P

namespace From

/-- A transaction starts with what the store holds. -/
theorem start {s : Session} (h : s.store.From P) : (start s).From P :=
  ⟨h, fun _ hedit => nomatch hedit⟩

/-- Adding an op in a transaction authors tokens only. -/
theorem addOp (h : tx.From P) (htokens : ∀ names, P id Op.orderName .default (.tokens names))
    (op : Op) : (tx.addOp id op).2.From P := by
  obtain ⟨hstore, hjournal⟩ := addOp_notes h.store h.journal
    (fun _ => Edit.from_of_before h.store) (fun _ => trivial) fun _ => h.store.addOp htokens
  exact ⟨hstore, hjournal⟩

/-- Setting the order in a transaction authors tokens only. -/
theorem setOrder (h : tx.From P) (htokens : ∀ names, P id Op.orderName .default (.tokens names))
    (order : OpOrder) : (tx.setOrder id order).2.From P := by
  obtain ⟨hstore, hjournal⟩ := setOrder_notes h.store h.journal
    (fun _ => Edit.from_of_before h.store) fun _ => h.store.setOrder htokens
  exact ⟨hstore, hjournal⟩

/-- A transaction may author a value from the source. -/
theorem setValue (h : tx.From P) {name : String} {value : Value}
    (hvalue : P id name .default value) : (tx.setValue id name value .default).2.From P := by
  have hprevious (previous : Option Value)
      (hauthored : tx.store.authored? id name .default = .ok previous) :
      (Edit.changed id name .default previous).From P := by
    refine ⟨rfl, ?_⟩
    rintro value rfl
    exact h.store _ _ _ _ hauthored
  obtain ⟨hstore, hjournal⟩ := setValue_notes h.store h.journal hprevious
    fun _ => h.store.setValue hvalue
  exact ⟨hstore, hjournal⟩

/-- Rolling back authors nothing that is not from the source. -/
theorem rollback (h : tx.From P) : tx.rollback.store.From P :=
  rollback_keeps (fun _ _ _ hedit hs => hedit.revert hs) h.store h.journal

end From

end Transaction

end TransformStack
