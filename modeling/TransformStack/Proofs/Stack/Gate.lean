import TransformStack.Proofs.Command.Origin
import TransformStack.Stack.Gate

/-!
# Canonical stacks

The handler of transform stacks takes an entity exactly where its order is canonical: every op
stands at a position, the positions rise, and each pivot stands together with its inverse. What a
command makes of a canonical order is canonical, since it only sorts in an op that was missing and,
for one half of a pivot pair, the half that cancels it.
-/

namespace TransformStack

/-! ## Canonical orders -/

namespace OpOrder

variable {order : OpOrder} {positions : List Position} {recipe : Recipe}

/-- The ops of the order stand at the given positions, one after the other. -/
def StandsAt (order : OpOrder) (positions : List Position) : Prop :=
  order.ops.map Position.ofOp? = positions.map some

/-- The positions rise strictly, and have either both or none of a pivot and its inverse. -/
structure Regular (positions : List Position) : Prop where
  rising : positions.Pairwise (·.rank < ·.rank)
  paired : ∀ p ∈ positions, ∀ q, p.companion = some q → q ∈ positions

/-- All ops stand at positions, which rise and are paired. -/
def Canonical (order : OpOrder) : Prop := ∃ positions, order.StandsAt positions ∧ Regular positions

/-- Positions are read off a list of ops exactly if each op is at the one in its place. -/
theorem mapM_ofOp?_eq_some_iff {ops : List Op} :
    ops.mapM Position.ofOp? = some positions ↔
      ops.map Position.ofOp? = positions.map some := by
  induction ops generalizing positions with
  | nil => cases positions <;> simp
  | cons op ops ih =>
    rw [List.mapM_cons, List.map_cons, Option.bind_eq_bind, Option.bind_eq_some_iff]
    constructor
    · rintro ⟨p, hp, h⟩
      obtain ⟨others, hothers, h⟩ := Option.bind_eq_some_iff.1 h
      obtain rfl := Option.some.inj h
      rw [List.map_cons, hp, ih.1 hothers]
    · intro h
      cases positions with
      | nil => cases h
      | cons p others =>
        obtain ⟨hp, hothers⟩ := List.cons.inj h
        exact ⟨p, hp, Option.bind_eq_some_iff.2 ⟨others, ih.2 hothers, rfl⟩⟩

/-- The check for canonical positions decides that they are regular. -/
theorem isCanonical_iff : Gate.isCanonical positions ↔ Regular positions := by
  rw [Gate.isCanonical, Bool.and_eq_true, decide_eq_true_iff, List.all_eq_true]
  constructor
  · rintro ⟨hrising, hpaired⟩
    refine ⟨hrising, fun p hp q hcompanion => ?_⟩
    simpa [hcompanion] using hpaired p hp
  · rintro ⟨hrising, hpaired⟩
    refine ⟨hrising, fun p hp => ?_⟩
    cases hcompanion : p.companion with
    | none => rfl
    | some q => simpa using hpaired p hp q hcompanion

/-- Regular positions do not repeat. -/
theorem Regular.nodup (h : Regular positions) : positions.Nodup :=
  h.rising.imp fun hlt => ne_of_apply_ne Position.rank (Nat.ne_of_lt hlt)

/-- A stack stands at the positions that its order has an op at. -/
theorem StandsAt.mem_iff (h : order.StandsAt positions) {p : Position} :
    p ∈ positions ↔ (order.at? p).isSome := by
  rw [at?_isSome_iff]
  constructor
  · intro hp
    have hmem : some p ∈ order.ops.map Position.ofOp? := by
      rw [h]
      exact List.mem_map_of_mem hp
    obtain ⟨op, hop, hplace⟩ := List.mem_map.1 hmem
    exact ⟨op, hop, hplace⟩
  · rintro ⟨op, hop, hplace⟩
    have hmem : some p ∈ positions.map some := by
      rw [← h, ← hplace]
      exact List.mem_map_of_mem hop
    simpa using hmem

/-! ## Additions -/

/-- No position is lacking twice. -/
theorem nodup_lacking (order : OpOrder) (p : Position) : (order.lacking p).Nodup := by
  refine List.nodup_cons.2 ⟨fun hmem => ?_, ?_⟩
  · have hcompanion : p.companion = some p := by simpa using (List.mem_filter.1 hmem).1
    exact Position.ne_of_companion hcompanion rfl
  · cases p.companion with
    | none => exact List.nodup_nil
    | some q => exact (List.nodup_singleton q).filter _

/-- What an order lacks stands at positions that are different from those of its ops. -/
theorem StandsAt.nodup_lacking (h : order.StandsAt positions) (hnodup : positions.Nodup)
    {p : Position} (hmissing : order.at? p = none) : (positions ++ order.lacking p).Nodup := by
  refine List.nodup_append'.2 ⟨hnodup, OpOrder.nodup_lacking _ _, fun q hq hlacking => ?_⟩
  rw [h.mem_iff] at hq
  rcases mem_lacking.1 hlacking with rfl | ⟨-, hnone⟩
  · simp [hmissing] at hq
  · simp [hnone] at hq

/-- Sorting what a recipe adds into a canonical order that lacks it gives a canonical order. -/
theorem Canonical.sorted (h : order.Canonical) (hfits : recipe.Fits)
    (hmissing : order.at? recipe.position = none) :
    Canonical { order with
      ops := Op.byPosition (order.ops ++ (recipe.additions order).map Op.stored) } := by
  obtain ⟨positions, hstands, hregular⟩ := h
  let all := positions ++ order.lacking recipe.position
  have hall : (order.ops ++ (recipe.additions order).map Op.stored).map Position.ofOp? =
      all.map some := by
    rw [List.map_append, List.map_append, map_additions hfits, hstands]
  have hnodup : all.Nodup := hstands.nodup_lacking hregular.nodup hmissing
  refine ⟨Position.all.filter (· ∈ all), Op.map_byPosition_of_nodup hall hnodup, ?_, ?_⟩
  · exact Position.pairwise_all.filter _
  -- A pair is complete if it was there, and also if one half of it is added.
  · intro p hp q hcompanion
    have hp : p ∈ all := by simpa [Position.mem_all] using hp
    suffices hq : q ∈ all by simpa [Position.mem_all] using hq
    rcases List.mem_append.1 hp with hold | hnew
    · exact List.mem_append_left _ (hregular.paired p hold q hcompanion)
    rcases mem_lacking.1 hnew with rfl | ⟨hpair, -⟩
    · cases hat : order.at? q with
      | none => exact List.mem_append_right _ (mem_lacking.2 (.inr ⟨hcompanion, hat⟩))
      | some op =>
        refine List.mem_append_left _ (hstands.mem_iff.2 ?_)
        rw [hat]
        rfl
    · rw [Position.companion_symm] at hpair
      obtain rfl : recipe.position = q := Option.some.inj (hpair.symm.trans hcompanion)
      exact List.mem_append_right _ List.mem_cons_self

end OpOrder

/-! ## The gate -/

namespace Store

variable {s : Store} {id : EntityId}

/-- The order of the entity can be read, so every op stands on its attribute, and is canonical. -/
def HasCanonical (s : Store) (id : EntityId) : Prop :=
  ∃ order, s.order id = .ok order ∧ order.Canonical

/-- The handler of transform stacks takes an entity if its order is canonical, and only then. -/
theorem resolve_eq_found_iff {time : TimeCode} :
    (Handler.stack time).resolve s id = .ok (.found (.stack ⟨id, time⟩)) ↔ s.HasCanonical id := by
  show Gate.resolve s id time (fun _ => .ok .delegate) = _ ↔ _
  unfold Gate.resolve
  rw [bind_eq_ok_iff]
  constructor
  · rintro ⟨found, hfound, h⟩
    cases found with
    | none => cases h
    | some positions =>
      dsimp only at h
      split at h
      · next hcanonical =>
        unfold Gate.positions? at hfound
        split at hfound
        · next order horder =>
          have hmapM := OpOrder.mapM_ofOp?_eq_some_iff.1 (Except.ok.inj hfound)
          exact ⟨order, horder, positions, hmapM, OpOrder.isCanonical_iff.1 hcanonical⟩
        · cases hfound
        · cases hfound
      · cases h
  · rintro ⟨order, horder, positions, hstands, hregular⟩
    refine ⟨some positions, ?_, ?_⟩
    · rw [Gate.positions?, horder]
      exact congrArg Except.ok (OpOrder.mapM_ofOp?_eq_some_iff.2 hstands)
    · dsimp only
      rw [if_pos (OpOrder.isCanonical_iff.2 hregular)]
      rfl

end Store

/-! ## What commands make of canonical orders -/

namespace Command

variable {c : Command} {value : Vector3} {before after : Store} {op : Op} {journal : Journal}
  {id : EntityId}

/-- A write keeps the orders of other entities. -/
theorem Writes.order_of_ne (h : c.Writes value before after op journal) (hne : c.entity ≠ id) :
    after.order id = before.order id := by
  refine h.keeps_of_alter (Q := fun s => s.order id = before.order id) rfl ?_
  intro s name change hs
  rw [Store.order_alter_of_ne hne, hs]

/-- A write keeps every canonical order canonical. -/
theorem Writes.hasCanonical (h : c.Writes value before after op journal) (hfits : c.recipe.Fits)
    (hbefore : before.HasCanonical id) : after.HasCanonical id := by
  obtain ⟨order, horder, hcanonical⟩ := hbefore
  by_cases hentity : c.entity = id
  · subst hentity
    rcases h.order_cases horder with ⟨-, hsame⟩ | ⟨hmissing, -, -, hmade⟩
    · exact ⟨order, hsame, hcanonical⟩
    · exact ⟨_, hmade, hcanonical.sorted hfits (Option.or_eq_none_iff.1 hmissing).2⟩
  · exact ⟨order, (h.order_of_ne hentity).trans horder, hcanonical⟩

/-- An applied command leaves the stack canonical. -/
theorem Applied.hasCanonical (h : c.Applied before after) (hfits : c.recipe.Fits)
    (hbefore : before.HasCanonical id) : after.HasCanonical id := by
  obtain ⟨value, op, -, hwrites, -⟩ := h.writes
  exact hwrites.hasCanonical hfits hbefore

end Command

/-- What an applied command made of canonical orders is canonical. -/
theorem AnyCommand.Applied.hasCanonical {command : AnyCommand} {before after : Store}
    {id : EntityId} (h : command.Applied before after) (hplaced : command.Placed)
    (hbefore : before.HasCanonical id) : after.HasCanonical id := by
  cases command with
  | single c =>
    obtain ⟨position, hat⟩ := hplaced
    exact Command.Applied.hasCanonical h hat.fits hbefore
  | matrix m =>
    obtain ⟨s₁, s₂, htranslate, hrotate, hscale⟩ := h
    have hfirst := htranslate.hasCanonical hplaced.translate.fits hbefore
    have hsecond := hrotate.hasCanonical hplaced.rotate.fits hfirst
    exact hscale.hasCanonical hplaced.scale.fits hsecond

end TransformStack
