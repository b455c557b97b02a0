import TransformStack.Proofs.Edit.Transaction

/-!
# Journals of many transactions

A transaction is a row of writes, some of which the store may refuse or fail at. Rolled back, it
leaves the store it started on. Committed, it hands its journal to an item, which gathers the
journals of consecutive transactions and can be joined with the item of later ones. Reverting what
was gathered leads back to the store before the first of the transactions, however the writes were
divided among transactions and items.
-/

namespace TransformStack

/-! ## Rows of writes -/

/-- A write that a transaction is asked for. -/
inductive Write where
  | addOp (id : EntityId) (op : Op)
  | setOrder (id : EntityId) (order : OpOrder)
  | setValue (id : EntityId) (name : String) (value : Value) (time : TimeCode)

namespace Transaction

/-- Make a write, and tell whether it was made. -/
def make (tx : Transaction) : Write → Except StoreError Bool × Transaction
  | .addOp id op => tx.addOp id op
  | .setOrder id order => tx.setOrder id order
  | .setValue id name value time => tx.setValue id name value time

/-- Make writes one after the other, whatever comes of each. -/
def makeAll (tx : Transaction) (writes : List Write) : Transaction :=
  writes.foldl (fun tx write => (tx.make write).2) tx

/-- Keep the writes of a transaction, and hand its journal to an item. -/
def commit (tx : Transaction) (item : Journal) : Journal := tx.journal ++ item

variable {tx : Transaction} {origin : Store}

/-- A property of stores that the store's own write keeps is kept by authoring a value. -/
theorem setValue_keeps {Q : Store → Prop} {id : EntityId} {name : String} {value : Value}
    {time : TimeCode} (h : Q tx.store)
    (hwrite : ∀ s, tx.store.setValue id name value time = .ok (some s) → Q s) :
    Q (tx.setValue id name value time).2.store := by
  rcases tx.setValue_taken_or id name value time with ⟨tx', htaken⟩ | hsame
  · obtain ⟨previous, s, -, hset, rfl⟩ := setValue_eq_ok_iff.1 htaken
    rw [htaken]
    exact hwrite s hset
  · rwa [hsame]

/-- Each write keeps values and orders typed, made or not. -/
theorem wellTyped_make (h : tx.store.WellTyped) (write : Write) :
    (tx.make write).2.store.WellTyped := by
  cases write with
  | addOp id op => exact addOp_keeps h fun s => h.addOp
  | setOrder id order => exact setOrder_keeps h fun s => h.setOrder
  | setValue id name value time => exact setValue_keeps h fun s => h.setValue

/-- Each write extends the way back that the journal knows, made or not. -/
theorem Traced.make (h : tx.Traced origin) (htyped : tx.store.WellTyped) (write : Write) :
    (tx.make write).2.Traced origin := by
  cases write with
  | addOp id op => exact h.addOp (htyped.orderTyped id) op
  | setOrder id order => exact h.setOrder (htyped.orderTyped id) order
  | setValue id name value time => exact h.setValue (htyped.valueTyped id name time) value

/-- Writes keep values and orders typed, made or not. -/
theorem wellTyped_makeAll (h : tx.store.WellTyped) (writes : List Write) :
    (tx.makeAll writes).store.WellTyped := by
  induction writes generalizing tx with
  | nil => exact h
  | cons write writes ih => exact ih (wellTyped_make h write)

/-- Writes extend the way back that the journal knows, made or not. -/
theorem Traced.makeAll (h : tx.Traced origin) (htyped : tx.store.WellTyped)
    (writes : List Write) : (tx.makeAll writes).Traced origin := by
  induction writes generalizing tx with
  | nil => exact h
  | cons write writes ih => exact ih (h.make htyped write) (wellTyped_make htyped write)

/-- A transaction of any writes knows the way back to where it started. -/
theorem traced_start {s : Session} (htyped : s.store.WellTyped) (writes : List Write) :
    ((start s).makeAll writes).Traced s.store := by
  have hstart : (start s).Traced s.store := rfl
  exact hstart.makeAll htyped writes

end Transaction

/-! ## Items -/

namespace Journal

/-- Move the edits of a later item behind those of an earlier one. -/
def join (earlier later : Journal) : Journal := later ++ earlier

/-- Between two sessions transactions of any writes are made, one after the other, and an item has
gathered the journals of those that are committed. Items of consecutive transactions may be joined;
a transaction that is rolled back adds nothing. -/
inductive Gathers : Session → Session → Journal → Prop where
  | nothing (s : Session) : Gathers s s []
  | commit {s s' : Session} {item : Journal} (h : Gathers s s' item) (writes : List Write) :
      Gathers s ((Transaction.start s').makeAll writes).toSession
        (((Transaction.start s').makeAll writes).commit item)
  | rollback {s s' : Session} {item : Journal} (h : Gathers s s' item) (writes : List Write) :
      Gathers s ((Transaction.start s').makeAll writes).rollback item
  | join {s s' s'' : Session} {earlier later : Journal} (hearlier : Gathers s s' earlier)
      (hlater : Gathers s' s'' later) : Gathers s s'' (earlier.join later)

/-- What is gathered takes the last store back to the first, and stores stay typed. -/
theorem Gathers.takesBack {s s' : Session} {item : Journal} (h : Gathers s s' item)
    (htyped : s.store.WellTyped) : item.TakesBack s'.store s.store ∧ s'.store.WellTyped := by
  induction h with
  | nothing s => exact ⟨rfl, htyped⟩
  | commit h writes ih =>
    obtain ⟨hback, hmid⟩ := ih htyped
    exact ⟨TakesBack.append (Transaction.traced_start hmid writes) hback,
      Transaction.wellTyped_makeAll hmid writes⟩
  | @rollback s s' item h writes ih =>
    obtain ⟨hback, hmid⟩ := ih htyped
    -- A transaction that is rolled back leaves the store it found, so nothing of it is gathered.
    have hsame : ((Transaction.start s').makeAll writes).rollback.store = s'.store :=
      (Transaction.traced_start hmid writes).store_rollback
    rw [hsame]
    exact ⟨hback, hmid⟩
  | join hearlier hlater ihearlier ihlater =>
    obtain ⟨hback, hmid⟩ := ihearlier htyped
    obtain ⟨hback', hend⟩ := ihlater hmid
    exact ⟨hback'.append hback, hend⟩

end Journal

/-! ## Rolling back and undoing -/

namespace Session

/-- Rolling back a transaction of any writes restores the store it started on. Undoing an item that
gathered committed transactions restores the store before the first of them, and leaves the item
empty. -/
theorem rollback_and_undo_restore {s : Session} (htyped : s.store.WellTyped) :
    (∀ writes, ((Transaction.start s).makeAll writes).rollback.store = s.store) ∧
      ∀ s' item, Journal.Gathers s s' item → ∀ later : Session, later.store = s'.store →
        (item.revert later).1 = (.ok (), []) ∧ (item.revert later).2.store = s.store := by
  constructor
  · intro writes
    exact (Transaction.traced_start htyped writes).store_rollback
  · intro s' item hgathers later hstore
    have hback := (hgathers.takesBack htyped).1
    rw [← hstore] at hback
    obtain ⟨houtcome, hlayer⟩ := hback.revert
    exact ⟨houtcome, by rw [Session.store, hlayer]⟩

/-- Two transactions on a bare store, with a write in each that is refused, are taken back by the
item that joins their journals. -/
theorem rollback_and_undo_restore_bare :
    let s : Session := { layer := { store := .bare } }
    let op : Op := ⟨.translate, none, .double, false⟩
    let first := (Transaction.start s).makeAll [.addOp default op, .addOp default op]
    let second := (Transaction.start first.toSession).makeAll
      [.setValue default op.attributeName (.double3 Vector3.one) .default,
        .setValue default "other" (.double3 Vector3.one) .default]
    let item := (first.commit []).join (second.commit [])
    item.length = 3 ∧ (item.revert second.toSession).1 = (.ok (), []) ∧
      (item.revert second.toSession).2.store = .bare := by
  intro s op first second item
  have htyped : s.store.WellTyped := Store.wellTyped_bare
  have hgathers : Journal.Gathers s second.toSession item :=
    .join (.commit (.nothing s) _) (.commit (.nothing first.toSession) _)
  have hlength : item.length = 3 := by decide +kernel
  exact ⟨hlength, (rollback_and_undo_restore htyped).2 _ _ hgathers _ rfl⟩

end Session

end TransformStack
