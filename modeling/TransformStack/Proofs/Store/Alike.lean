import TransformStack.Proofs.Edit.Reverting
import TransformStack.Proofs.Store.Order

/-!
# Stores that differ in values only

Two stores are alike for an entity if they agree on everything that its order is read from and that
arranging its ops depends on: the order attribute, and what the other attributes are, but not what
they hold. Authoring the value of an op leaves a store alike, and so does taking it back. What takes
back the arranging of ops does the same to stores that are alike.
-/

namespace TransformStack

/-! ## Alike stores -/

/-- The stores agree on an entity but for the values of its ops. -/
structure Store.Alike (id : EntityId) (s t : Store) : Prop where
  readOnly : s.readOnly = t.readOnly
  has : s.has id = t.has id
  order : s.find? id Op.orderName = t.find? id Op.orderName
  records : ∀ name, s.record? id name = t.record? id name

namespace Store.Alike

variable {s t u : Store} {id : EntityId} {name : String}

theorem refl (s : Store) : s.Alike id s := ⟨rfl, rfl, rfl, fun _ => rfl⟩

theorem trans (h : s.Alike id t) (h' : t.Alike id u) : s.Alike id u :=
  ⟨h.readOnly.trans h'.readOnly, h.has.trans h'.has, h.order.trans h'.order,
    fun name => (h.records name).trans (h'.records name)⟩

/-- Stores that are alike have the same order. -/
theorem order_eq (h : s.Alike id t) : s.order id = t.order id := by
  refine order_congr h.has ?_ h.records
  rw [orderTokens?, orderTokens?, authored?, authored?, h.order]

/-- That the order is typed carries over to a store that is alike. -/
theorem orderTyped (h : s.Alike id t) (htyped : t.OrderTyped id) : s.OrderTyped id :=
  fun a ha => htyped a (h.order ▸ ha)

/-- An attribute is there in both stores or in neither. -/
theorem isSome_find? (h : s.Alike id t) (name : String) :
    (s.find? id name).isSome = (t.find? id name).isSome := by
  have hiff : s.find? id name = none ↔ t.find? id name = none := by
    rw [← record?_eq_none_iff, ← record?_eq_none_iff, h.records]
  cases hs : s.find? id name <;> cases ht : t.find? id name <;> simp [hs, ht] at hiff ⊢

/-! ## Values -/

/-- What an attribute holds does not show, unless it is the order. -/
theorem of_setCell (hname : name ≠ Op.orderName) (cell : Option Cell) (time : TimeCode) :
    (s.alter id name (·.map (·.setCell cell time))).Alike id s := by
  refine ⟨rfl, has_alter _ _, ?_, fun name' => ?_⟩
  · rw [find?_alter, if_neg fun hat => hname hat.2.1]
  · rw [record?, record?, find?_alter]
    by_cases hat : id = id ∧ name = name' ∧ s.has id
    · rw [if_pos hat]
      cases s.find? id name' <;> simp
    · rw [if_neg hat]

/-- Setting the value of an op gives a store alike the old one. -/
theorem of_setValue {op : Op} {value : Value}
    (h : s.setValue id op.attributeName value .default = .ok (some t)) : t.Alike id s := by
  obtain ⟨-, a, type, -, -, -, -, rfl⟩ := setValue_eq_ok_iff.1 h
  exact of_setCell op.attributeName_ne_orderName _ _

/-! ## Orders and created attributes -/

/-- One change to the order attribute leaves alike stores alike. -/
theorem alter_order (h : s.Alike id t) (change : Option Attribute → Option Attribute) :
    (s.alter id Op.orderName change).Alike id (t.alter id Op.orderName change) := by
  refine ⟨h.readOnly, by rw [has_alter, has_alter, h.has], ?_, fun name => ?_⟩
  · rw [find?_alter, find?_alter, h.order, h.has]
  · by_cases hname : Op.orderName = name
    · subst hname
      rw [record?, record?, find?_alter, find?_alter, h.order, h.has]
    · rw [record?, record?, find?_alter, find?_alter, if_neg fun hat => hname hat.2.1,
        if_neg fun hat => hname hat.2.1]
      exact h.records name

/-- Removing one attribute leaves alike stores alike. -/
theorem remove (h : s.Alike id t) (name : String) :
    (s.alter id name fun _ => none).Alike id (t.alter id name fun _ => none) := by
  refine ⟨h.readOnly, by rw [has_alter, has_alter, h.has], ?_, fun name' => ?_⟩
  · rw [find?_alter, find?_alter, h.order, h.has]
  · rw [record?, record?, find?_alter, find?_alter, h.has]
    by_cases hat : id = id ∧ name = name' ∧ t.has id
    · rw [if_pos hat, if_pos hat]
    · rw [if_neg hat, if_neg hat]
      exact h.records name'

end Store.Alike

/-! ## Edits -/

namespace Edit

variable {s s' t t' : Store} {id : EntityId} {op : Op} {edit : Edit}

/-- The edit takes back a value of an op. -/
def IsValue (id : EntityId) (op : Op) (edit : Edit) : Prop :=
  ∃ previous, edit = changed id op.attributeName .default previous

/-- The edit takes back the creation of an attribute or a change to the order. -/
def IsArranging (id : EntityId) (edit : Edit) : Prop :=
  (∃ name, edit = created id name) ∨ ∃ previous, edit = changed id Op.orderName .default previous

/-- Where a value is taken back, the stores are alike. -/
theorem IsValue.alike (h : edit.IsValue id op) (hrevert : edit.revert s = .ok (some s')) :
    s'.Alike id s := by
  obtain ⟨previous, rfl⟩ := h
  rw [eq_alter_of_revert_changed hrevert]
  exact .of_setCell op.attributeName_ne_orderName _ _

/-- An edit that takes arranging back does the same to stores that are alike. -/
theorem IsArranging.exists_revert (h : edit.IsArranging id) (halike : s.Alike id t)
    (hrevert : edit.revert t = .ok (some t')) :
    ∃ s', edit.revert s = .ok (some s') ∧ s'.Alike id t' := by
  rcases h with ⟨name, rfl⟩ | ⟨previous, rfl⟩
  · obtain ⟨hopen, ⟨a, ha⟩, rfl⟩ :=
      Store.removeAttribute_eq_some_iff.1 (Except.ok.inj hrevert)
    have hsome := halike.isSome_find? name
    rw [ha] at hsome
    have hfind := Option.isSome_iff_exists.1 hsome
    exact ⟨_, congrArg Except.ok (Store.removeAttribute_eq_some_iff.2
      ⟨halike.readOnly.trans hopen, hfind, rfl⟩), halike.remove name⟩
  · cases previous with
    | none =>
      obtain ⟨hopen, a, type, ha, hdeclared, rfl⟩ := Store.clearValue_eq_ok_iff.1 hrevert
      exact ⟨_, Store.clearValue_eq_ok_iff.2
        ⟨halike.readOnly.trans hopen, a, type, halike.order.trans ha, hdeclared, rfl⟩,
        halike.alter_order _⟩
    | some value =>
      obtain ⟨hopen, a, type, ha, hdeclared, htyped, htime, rfl⟩ :=
        Store.setValue_eq_ok_iff.1 hrevert
      exact ⟨_, Store.setValue_eq_ok_iff.2
        ⟨halike.readOnly.trans hopen, a, type, halike.order.trans ha, hdeclared, htyped, htime,
          rfl⟩,
        halike.alter_order _⟩

end Edit

/-! ## Journals -/

namespace Journal

variable {journal values : Journal} {session : Session} {after before : Store}
  {id : EntityId} {op : Op}

/-- A journal that takes arranging back can be reverted on a store that is alike, and leads to one
that is alike. -/
theorem TakesBack.revert_alike (h : journal.TakesBack after before)
    (harranging : ∀ edit ∈ journal, edit.IsArranging id) (halike : session.store.Alike id after) :
    (journal.revert session).1 = (.ok (), []) ∧
      (journal.revert session).2.store.Alike id before := by
  induction journal generalizing session after with
  | nil =>
    obtain rfl : after = before := h
    exact ⟨rfl, halike⟩
  | cons edit older ih =>
    obtain ⟨s, hrevert, holder⟩ := h
    obtain ⟨hedit, hothers⟩ := List.forall_mem_cons.1 harranging
    obtain ⟨s', hrevert', halike'⟩ := hedit.exists_revert halike hrevert
    have hstore : session.layer.onStore (edit.revert session.store) =
        .ok (some { session.layer with store := s' }) := by
      rw [hrevert']
      rfl
    simp only [Journal.revert, hstore]
    exact ih holder hothers halike'

/-- Values that are taken back first leave a store that is alike to the rest of a journal, or
reverting stops among them. -/
theorem revert_values (hvalues : ∀ edit ∈ values, edit.IsValue id op) (older : Journal)
    (session : Session) :
    (∃ session' : Session, session'.store.Alike id session.store ∧
      (values ++ older : Journal).revert session = older.revert session') ∨
    ∃ e remaining, remaining <:+ values ∧
      ((values ++ older : Journal).revert session).1 = (.error e, remaining ++ older) ∧
      ((values ++ older : Journal).revert session).2.store.Alike id session.store := by
  -- On the values, the newest first. Reverting may stop at any of them, and has only cleared or
  -- restored values by then.
  induction values generalizing session with
  | nil => exact .inl ⟨session, .refl _, rfl⟩
  | cons edit values ih =>
    obtain ⟨hedit, hothers⟩ := List.forall_mem_cons.1 hvalues
    simp only [List.cons_append, Journal.revert]
    cases hrevert : edit.revert session.store with
    | error e => exact .inr ⟨_, edit :: values, List.suffix_refl _, rfl, .refl _⟩
    | ok reverted =>
      cases reverted with
      | none => exact .inr ⟨_, edit :: values, List.suffix_refl _, rfl, .refl _⟩
      | some s =>
        have halike : s.Alike id session.store := hedit.alike hrevert
        rcases ih hothers (session.wrote edit.entity { session.layer with store := s }) with
          ⟨session', halike', hrest⟩ | ⟨e, remaining, hsuffix, hrest, halike'⟩
        · exact .inl ⟨session', halike'.trans halike, hrest⟩
        · exact .inr ⟨e, remaining, hsuffix.trans (List.suffix_cons _ _), hrest,
            halike'.trans halike⟩

end Journal

end TransformStack
