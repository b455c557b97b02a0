import TransformStack.Proofs.Edit.Transaction

/-!
# Ways back that the store may bar

An edit that is reverted right after the write it was noted for gives back exactly the store before
the write, or nothing: the store can refuse what takes a write back, or fail at it, but it cannot be
led astray. This holds of any store, whatever its attributes hold and declare. So a journal that is
reverted passes the stores that its writes passed, in reverse, and stops at one of them.
-/

namespace TransformStack

namespace Edit

variable {s s' : Store} {id : EntityId} {name : String} {time : TimeCode} {edit : Edit}

/-- Where a created attribute is removed, the store is as it was. -/
theorem eq_of_revert_created (hnone : s.find? id name = none)
    {change : Option Attribute → Option Attribute}
    (h : (created id name).revert (s.alter id name change) = .ok (some s')) : s' = s := by
  rw [eq_alter_of_revert_created h, Store.alter_alter]
  exact Store.alter_of_eq s id name _ hnone.symm

/-- Where what was authored is put back, the store is as it was. -/
theorem eq_of_revert_changed {a : Attribute} {cell : Option Cell} {previous : Option Value}
    (ha : s.find? id name = some a) (hprevious : a.cell? time = Option.map .value previous)
    {change : Option Attribute → Option Attribute}
    (hchange : change (some a) = some (a.setCell cell time))
    (h : (changed id name time previous).revert (s.alter id name change) = .ok (some s')) :
    s' = s := by
  rw [eq_alter_of_revert_changed h]
  exact alter_setCell_back ha hprevious hchange

/-- Where what was noted before a write to an attribute is reverted, the store is as it was. -/
theorem eq_of_revert_before (hbefore : before s id name time = .ok edit)
    {change : Option Attribute → Option Attribute} {cell : Option Cell}
    (hchange : ∀ a, change (some a) = some (a.setCell cell time))
    (h : edit.revert (s.alter id name change) = .ok (some s')) : s' = s := by
  rcases before_eq_ok_iff.1 hbefore with
    ⟨hnone, rfl⟩ | ⟨a, type, previous, ha, -, hprevious, rfl⟩
  · exact eq_of_revert_created hnone h
  · exact eq_of_revert_changed ha hprevious (hchange a) h

end Edit

/-! ## Journals -/

/-- Reverting the edits of a journal, the newest first, leads from one store back to another as far
as it goes, and a property holds of all stores on the way. -/
def Journal.Unwinds (P : Store → Prop) : Journal → Store → Store → Prop
  | [], after, before => after = before
  | edit :: older, after, before =>
    ∃ s, (∀ s', edit.revert after = .ok (some s') → s' = s) ∧ P s ∧ Unwinds P older s before

namespace Journal

variable {P : Store → Prop} {newer older journal : Journal} {after s before : Store}

/-- The journals of two runs of writes, one after the other, unwind both. -/
theorem Unwinds.append (hnewer : Unwinds P newer after s) (holder : Unwinds P older s before) :
    Unwinds P (newer ++ older) after before := by
  induction newer generalizing after with
  | nil =>
    obtain rfl : after = s := hnewer
    exact holder
  | cons edit newer ih =>
    obtain ⟨s', hrevert, hs', hnewer⟩ := hnewer
    exact ⟨s', hrevert, hs', ih hnewer⟩

/-- A journal that takes a store back unwinds it: reverting leads nowhere else. -/
theorem TakesBack.unwinds (h : journal.TakesBack after before) :
    journal.Unwinds (fun _ => True) after before := by
  induction journal generalizing after with
  | nil => exact h
  | cons edit older ih =>
    obtain ⟨s, hrevert, holder⟩ := h
    refine ⟨s, fun s' hrevert' => ?_, trivial, ih holder⟩
    exact Option.some.inj (Except.ok.inj (hrevert'.symm.trans hrevert))

/-- A journal takes a store back to nowhere but to where it unwinds to. -/
theorem Unwinds.eq_of_takesBack (h : journal.Unwinds P after before)
    (hback : journal.TakesBack after s) : s = before := by
  induction journal generalizing after with
  | nil =>
    obtain rfl : after = s := hback
    exact h
  | cons edit older ih =>
    obtain ⟨mid, hexact, -, holder⟩ := h
    obtain ⟨mid', hrevert, hback⟩ := hback
    obtain rfl := hexact mid' hrevert
    exact ih holder hback

/-- Reverting a journal keeps the property, and leads all the way back unless it fails. -/
theorem Unwinds.revert {session : Session} (h : journal.Unwinds P session.store before)
    (hP : P session.store) :
    P (journal.revert session).2.store ∧
      ((journal.revert session).1.1 = .ok () →
        (journal.revert session).1.2 = [] ∧ (journal.revert session).2.store = before) := by
  induction journal generalizing session with
  | nil => exact ⟨hP, fun _ => ⟨rfl, h⟩⟩
  | cons edit older ih =>
    obtain ⟨s, hexact, hs, holder⟩ := h
    unfold Journal.revert
    cases hrevert : edit.revert session.store with
    | error e =>
      refine ⟨hP, fun hok => ?_⟩
      cases hok
    | ok reverted =>
      cases reverted with
      | none =>
        refine ⟨hP, fun hok => ?_⟩
        cases hok
      | some s' =>
        obtain rfl := hexact s' hrevert
        exact ih holder hs

end Journal

/-! ## Transactions -/

namespace Transaction

variable {P : Store → Prop} {tx : Transaction} {id : EntityId} {origin : Store}

/-- The journal of a transaction unwinds its store to a store, with a property that holds of all
stores on the way. -/
structure Unwound (P : Store → Prop) (origin : Store) (tx : Transaction) : Prop where
  store : P tx.store
  journal : tx.journal.Unwinds P tx.store origin

/-- Adding an op extends the way back, whether it is added or not. -/
theorem Unwound.addOp (h : tx.Unwound P origin) {op : Op}
    (hdeclare : P (tx.store.declare id op.attributeName op.valueType))
    (hadd : ∀ s, tx.store.addOp id op = .ok (some s) → P s) :
    (tx.addOp id op).2.Unwound P origin := by
  rcases tx.addOp_taken_or id op with ⟨tx', htaken⟩ | ⟨hstore, hjournal⟩
  · obtain ⟨-, edits, s, hedits, hs, rfl⟩ := addOp_eq_ok_iff.1 htaken
    rw [htaken]
    refine ⟨hadd s hs, .append ?_ h.journal⟩
    obtain ⟨edit, record, hbefore, hrecord, rfl⟩ := Edit.beforeAdding_eq_ok_iff.1 hedits
    obtain ⟨-, -, -, tokens, -, -, -, rfl⟩ := Store.addOp_eq_ok_iff.1 hs
    rw [← Store.before_declare op op.valueType] at hbefore
    refine ⟨_, fun s' hrevert => Edit.eq_of_revert_before hbefore (fun a => rfl) hrevert, hdeclare,
      ?_⟩
    -- An attribute that was there was not created, and only the order is to be taken back.
    cases record with
    | none =>
      have hnone := Store.record?_eq_none_iff.1 hrecord
      exact ⟨tx.store, fun s' hrevert => Edit.eq_of_revert_created hnone hrevert, h.store, rfl⟩
    | some record =>
      obtain ⟨a, ha, -⟩ := Store.record?_eq_some_iff.1 hrecord
      exact Store.alter_of_eq tx.store id _ _ (by rw [ha]; rfl)
  · exact ⟨hstore ▸ h.store, by rw [hstore, hjournal]; exact h.journal⟩

/-- Writing an order extends the way back, whether it is written or not. -/
theorem Unwound.setOrder (h : tx.Unwound P origin) {order : OpOrder}
    (hset : ∀ s, tx.store.setOrder id order = .ok (some s) → P s) :
    (tx.setOrder id order).2.Unwound P origin := by
  rcases tx.setOrder_taken_or id order with ⟨tx', htaken⟩ | hsame
  · obtain ⟨-, edit, s, hbefore, hs, rfl⟩ := setOrder_eq_ok_iff.1 htaken
    rw [htaken]
    refine ⟨hset s hs, .append ?_ h.journal⟩
    obtain ⟨-, -, -, rfl⟩ := Store.setOrder_eq_ok_iff.1 hs
    exact ⟨tx.store, fun s' hrevert => Edit.eq_of_revert_before hbefore (fun a => rfl) hrevert,
      h.store, rfl⟩
  · rwa [hsame]

/-- Authoring a value extends the way back, whether it is authored or not. -/
theorem Unwound.setValue (h : tx.Unwound P origin) {name : String} {value : Value}
    {time : TimeCode} (hset : ∀ s, tx.store.setValue id name value time = .ok (some s) → P s) :
    (tx.setValue id name value time).2.Unwound P origin := by
  rcases tx.setValue_taken_or id name value time with ⟨tx', htaken⟩ | hsame
  · obtain ⟨previous, s, hprevious, hs, rfl⟩ := setValue_eq_ok_iff.1 htaken
    rw [htaken]
    refine ⟨hset s hs, .append ?_ h.journal⟩
    obtain ⟨-, a, type, ha, -, -, -, rfl⟩ := Store.setValue_eq_ok_iff.1 hs
    rw [Store.authored?, ha, Cell.read?_eq_ok_iff] at hprevious
    exact ⟨tx.store, fun s' hrevert => Edit.eq_of_revert_changed ha hprevious rfl hrevert,
      h.store, rfl⟩
  · rwa [hsame]

/-- Rolling back keeps the property, and leads to the origin unless its failure is logged. -/
theorem Unwound.rollback (h : tx.Unwound P origin) :
    P tx.rollback.store ∧
      ((∀ e, LogEntry.rollbackFailed e ∉ tx.rollback.log) → tx.rollback.store = origin) := by
  unfold Transaction.rollback
  split
  · next hempty =>
    have hjournal := h.journal
    rw [List.isEmpty_iff.1 hempty] at hjournal
    exact ⟨h.store, fun _ => hjournal⟩
  · have hnote : tx.journal.Unwinds P (tx.note (.rollingBack tx.journal.length)).store origin :=
      h.journal
    obtain ⟨hstore, hback⟩ := hnote.revert h.store
    split
    · next s hrevert =>
      rw [hrevert] at hstore hback
      exact ⟨hstore, fun _ => (hback rfl).2⟩
    · next e _ s hrevert =>
      rw [hrevert] at hstore
      refine ⟨hstore, fun hlog => absurd ?_ (hlog e)⟩
      exact List.mem_append_right _ (List.mem_singleton_self _)

end Transaction

end TransformStack
