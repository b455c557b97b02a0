import Mathlib.Data.List.Forall2
import TransformStack.Edit.Authoring
import TransformStack.Proofs.Op.Grammar
import TransformStack.Proofs.Stack.Ordering

/-!
# Authoring ops by name

Names are authored one after the other: each is read as an op, the op is made again from its parts,
and the layer appends it. So the order that is read afterwards goes on, after the ops that were
there, with the names that were given, but for one thing: an op that is made from its parts has no
empty suffix, and so the colon of an empty suffix is missing in the name that is read.
-/

namespace TransformStack

namespace Op

/-- Authoring goes by what the name reads as, with a precision of its own. -/
theorem authored_eq_ok_iff {name : String} {op : Op} :
    Op.authored name = .ok op ↔ ∃ found, Op.read name .float = .ok found ∧
      op = .make found.kind (if found.kind = .translate ∧ found.suffix = none then .double else
        .float) found.suffix found.inverse := by
  unfold Op.authored
  rw [bind_eq_ok_iff]
  simp only [pure_eq_ok_iff, eq_comm (b := op)]

/-- The op that is authored for a name has that name, but for the colon of an empty suffix. -/
theorem trims_of_authored {name : String} {op : Op} (h : Op.authored name = .ok op) :
    Op.Trims name op.name := by
  obtain ⟨found, hread, rfl⟩ := Op.authored_eq_ok_iff.1 h
  exact Op.trims_of_read hread _

/-- Names without empty suffixes are left alone. -/
theorem eq_of_trims {names trimmed : List String}
    (hnone : ∀ name ∈ names, ∀ inverse kind, ¬Spells name inverse kind (some ""))
    (h : List.Forall₂ Trims names trimmed) : names = trimmed := by
  induction h with
  | nil => rfl
  | @cons name trimmed names others hname _ ih =>
    obtain ⟨hhead, htail⟩ := List.forall_mem_cons.1 hnone
    rw [ih htail]
    cases hname with
    | kept => rfl
    | @trimmed _ inverse kind hspells =>
      refine absurd ?_ (hhead inverse kind)
      rw [spells_iff .float] at hspells ⊢
      rw [hspells, name_of_empty_suffix]

end Op

namespace Layer

variable {layer after : Layer} {id : EntityId} {order : OpOrder} {names : List String}
  {ops : List Op}

/-- Authoring names that begin with one more comes to authoring an op for it, which the layer
appends, and then the others. -/
theorem author_cons_eq_ok {name : String} (h : layer.author id (name :: names) = (.ok ops, after)) :
    ∃ (op : Op) (others : List Op) (next : Layer), ops = op :: others ∧ Op.authored name = .ok op ∧
      layer.store.addOp id op = .ok (some next.store) ∧
      next.author id names = (.ok others, after) := by
  unfold author at h
  split at h
  · cases h
  next op hop =>
  split at h
  -- An answer that is not yes ends the authoring with a failure.
  · cases h
  · cases h
  next next haddOp =>
  rcases layer.addOp_cases id op with ⟨-, hstore⟩ | ⟨hrefused, -⟩
  · rw [haddOp] at hstore
    obtain ⟨hops, hafter⟩ := Prod.mk.inj h
    obtain ⟨others, hothers, rfl⟩ := map_eq_ok_iff.1 hops
    exact ⟨op, others, next, rfl, hop, hstore, Prod.ext hothers hafter⟩
  · exact absurd (congrArg Prod.fst haddOp) hrefused

/-- The ops that were authored for names read at the end of the order. -/
theorem order_author (horder : layer.store.order id = .ok order)
    (h : layer.author id names = (.ok ops, after)) :
    List.Forall₂ (fun name op => Op.authored name = .ok op) names ops ∧
      after.store.order id = .ok { order with ops := order.ops ++ ops.map Op.stored } := by
  induction names generalizing layer order ops with
  | nil =>
    obtain ⟨hops, rfl⟩ := Prod.mk.inj h
    obtain rfl := Except.ok.inj hops
    exact ⟨.nil, by simpa using horder⟩
  | cons name names ih =>
    obtain ⟨op, others, next, rfl, hop, hadd, hothers⟩ := author_cons_eq_ok h
    obtain ⟨hauthored, hread⟩ := ih (Store.order_addOp horder hadd) hothers
    refine ⟨.cons hop hauthored, hread.trans ?_⟩
    rw [List.append_assoc, List.singleton_append, List.map_cons]

/-- Making an op that was read from its parts gives it back, unless its suffix is empty, and then it
gives the op of the name without the last colon. So where the order can be read and all names are
authored, the order reads as before with the trimmed names at the end, which are the names that were
given if none of them has an empty suffix. -/
theorem authored_names_read :
    (∀ name precision op, Op.read name precision = .ok op →
      (op.suffix ≠ some "" → Op.make op.kind precision op.suffix op.inverse = op) ∧
        (op.suffix = some "" → ∃ stem, name = stem ++ ":" ∧
          Op.read stem precision = .ok (Op.make op.kind precision op.suffix op.inverse))) ∧
    ∀ (layer after : Layer) (id : EntityId) (order : OpOrder) (names : List String)
      (ops : List Op), layer.store.order id = .ok order →
      layer.author id names = (.ok ops, after) →
      ∃ found added, after.store.order id = .ok found ∧ found.resets = order.resets ∧
        found.ops.map Op.name = order.ops.map Op.name ++ added ∧
        List.Forall₂ Op.Trims names added ∧
        ((∀ name ∈ names, ∀ inverse kind, ¬Op.Spells name inverse kind (some "")) →
          added = names) := by
  refine ⟨fun name precision op hread => ?_, fun layer after id order names ops horder h => ?_⟩
  · obtain ⟨rfl, rfl⟩ := Op.read_eq_ok_iff_name.1 hread
    refine ⟨fun hsuffix => Op.make_of_ne_empty hsuffix _ _ _, fun hsuffix => ?_⟩
    obtain ⟨kind, suffix, precision, inverse⟩ := op
    obtain rfl : suffix = some "" := hsuffix
    dsimp only
    rw [Op.make_of_empty]
    exact ⟨_, Op.name_of_empty_suffix kind precision inverse, Op.read_eq_ok_iff_name.2 ⟨rfl, rfl⟩⟩
  · obtain ⟨hauthored, hread⟩ := order_author horder h
    have htrims : List.Forall₂ Op.Trims names (ops.map Op.name) := by
      rw [List.forall₂_map_right_iff]
      exact hauthored.imp fun _ _ => Op.trims_of_authored
    refine ⟨_, ops.map Op.name, hread, rfl, by simp [Function.comp_def], htrims, fun hnone => ?_⟩
    exact (Op.eq_of_trims hnone htrims).symm

/-- Two names with suffixes are authored on a bare entity, and read as they were given. -/
theorem authored_names_read_on_bare :
    let layer : Layer := { store := .bare }
    let names := ["xformOp:translate:a:", "!invert!xformOp:rotateX:b:c"]
    let ops : List Op :=
      [⟨.translate, some "a:", .float, false⟩, ⟨.rotateX, some "b:c", .float, true⟩]
    layer.store.order default = .ok ⟨[], false⟩ ∧ (layer.author default names).1 = .ok ops ∧
      ∃ found, (layer.author default names).2.store.order default = .ok found ∧
        found.ops.map Op.name = names := by
  intro layer names ops
  have horder : layer.store.order default = .ok ⟨[], false⟩ := by decide +kernel
  have hauthor : (layer.author default names).1 = .ok ops := by decide +kernel
  obtain ⟨found, added, hfound, -, hnames, -, hsame⟩ :=
    authored_names_read.2 layer _ default _ names ops horder (Prod.ext hauthor rfl)
  obtain rfl : added = names := by
    refine hsame fun name hname inverse kind hspells => ?_
    have hparse := Op.parse?_eq_some_iff.2 ⟨(Op.spells_iff .float).1 hspells, rfl⟩
    -- What the names are read as has a suffix that is not empty.
    have hsuffixes : ∀ name ∈ names, (Op.parse? name .float).bind Op.suffix ≠ some "" := by
      decide +kernel
    exact hsuffixes name hname (by rw [hparse]; rfl)
  exact ⟨horder, hauthor, found, hfound, hnames⟩

/-- The op of a name that ends with the colon is not made from its parts, and authoring the name on
a bare entity authors another. -/
theorem empty_suffix_left_out :
    let layer : Layer := { store := .bare }
    let name := "xformOp:translate:"
    ∃ op ops, Op.read name .float = .ok op ∧
      Op.make op.kind .float op.suffix op.inverse ≠ op ∧
      layer.store.order default = .ok ⟨[], false⟩ ∧
      (layer.author default [name]).1 = .ok ops ∧
      ∃ found, (layer.author default [name]).2.store.order default = .ok found ∧
        found.ops.map Op.name = ["xformOp:translate"] ∧ found.ops.map Op.name ≠ [name] := by
  refine ⟨{ kind := .translate, suffix := some "", precision := .float, inverse := false },
    [{ kind := .translate, suffix := none, precision := .float, inverse := false }], ?_⟩
  refine ⟨by decide +kernel, by decide +kernel, by decide +kernel, by decide +kernel, ?_⟩
  exact ⟨⟨[{ kind := .translate, suffix := none, precision := .float, inverse := false }], false⟩,
    by decide +kernel⟩

end Layer

end TransformStack
