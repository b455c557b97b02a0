import TransformStack.Edit.Journal

/-!
# Transactions

A transaction writes to a layer and keeps a journal. Committing it keeps the writes and hands the
journal over; rolling it back takes them back. Each write notes what takes it back before it is
made, and joins the journal only if it was made.
-/

namespace TransformStack

/-- A session that keeps a journal of its writes. -/
structure Transaction extends Session where
  journal : Journal := []

namespace Transaction

/-- A transaction that has not written anything. -/
def start (s : Session) : Transaction := { toSession := s }

/-- A write was made: the layer is the new one, and the edits that take the write back, the newest
first, join the journal. -/
def wrote (tx : Transaction) (id : EntityId) (layer : Layer) (edits : Journal) : Transaction :=
  { toSession := tx.toSession.wrote id layer, journal := edits ++ tx.journal }

/-- Add an op to the order of an entity, and tell whether it was added. -/
def addOp (tx : Transaction) (id : EntityId) (op : Op) :
    Except StoreError Bool × Transaction :=
  let undo : Except StoreError Journal := do
    let order ← Edit.before tx.store id Op.orderName .default
    match ← tx.store.record? id op.attributeName with
    | some _ => return [order]
    | none => return [order, .created id op.attributeName]
  match undo with
  | .error e => (.error e, tx)
  | .ok edits =>
    match tx.layer.addOp id op with
    | (.ok true, layer) => (.ok true, tx.wrote id layer edits)
    | (answer, layer) => (answer, { tx with layer })

/-- Write the order of an entity, and tell whether it was written. -/
def setOrder (tx : Transaction) (id : EntityId) (order : OpOrder) :
    Except StoreError Bool × Transaction :=
  match Edit.before tx.store id Op.orderName .default with
  | .error e => (.error e, tx)
  | .ok edit =>
    match tx.layer.setOrder id order with
    | .ok (some layer) => (.ok true, tx.wrote id layer [edit])
    | .ok none => (.ok false, tx)
    | .error e => (.error e, tx)

/-- Author a value at a time, and tell whether it was written. -/
def setValue (tx : Transaction) (id : EntityId) (name : String) (value : Value)
    (time : TimeCode) : Except StoreError Bool × Transaction :=
  match tx.store.authored? id name time with
  | .error e => (.error e, tx)
  | .ok previous =>
    match tx.layer.onStore (tx.store.setValue id name value time) with
    | .ok (some layer) => (.ok true, tx.wrote id layer [.changed id name time previous])
    | .ok none => (.ok false, tx)
    | .error e => (.error e, tx)

/-- Take back all writes. A rollback that has something to take back is logged, and so is its
failure, after which the writes that remain stay. -/
def rollback (tx : Transaction) : Session :=
  if tx.journal.isEmpty then tx.toSession
  else
    match tx.journal.revert (tx.note (.rollingBack tx.journal.length)) with
    | ((.ok _, _), s) => s
    | ((.error e, _), s) => s.note (.rollbackFailed e)

end Transaction

/-- Steps of a transaction: they may fail, and what they have written by then stays written. -/
abbrev Steps := ExceptT EditError (StateM Transaction)

namespace Steps

/-- Ask the store under edit. -/
def ask {α : Type} (question : Store → Except StoreError α) : Steps α :=
  fun tx => (EditError.ofStore (question tx.store), tx)

/-- Make a write that tells whether the store took it. -/
def tell (write : Transaction → Except StoreError Bool × Transaction) : Steps Bool :=
  fun tx => ((EditError.ofStore (write tx).1), (write tx).2)

/-- Fail unless the store took a write. -/
def require (cause : StructuralCause) (taken : Bool) : Steps Unit :=
  if taken then pure () else throw (.structural cause)

end Steps

/-- Run steps as one transaction: all of their writes stay, with the journal that takes them back,
or none does. -/
def Session.transact {α : Type} (s : Session) (steps : Steps α) :
    Except EditError (α × Journal) × Session :=
  match steps (Transaction.start s) with
  | (.ok a, tx) => (.ok (a, tx.journal), tx.toSession)
  | (.error e, tx) => (.error e, tx.rollback)

end TransformStack
