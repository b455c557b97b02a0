import TransformStack.Proofs.Edit.Placing
import TransformStack.Proofs.Stack.Gate
import TransformStack.Proofs.Store.Runs

/-!
# Inserting what an order lacks

Asking for an op where one stands finds the first one there and writes nothing. Where none stands,
the op of the recipe goes behind the ops of the order, and behind it the other half of its pivot
pair if that is missing too; then the order is sorted. The sort is stable, so of the ops that were
there none is lost, doubled, or moved past another one at its own position.
-/

namespace TransformStack

/-! ## The stable sort by position -/

/-- How many positions come before the one at which an op of this name stands. -/
def Position.rankOfName (name : String) : Nat := (ofOpName? name).elim 0 rank

/-- How many positions come before the one at which an op stands. -/
def Op.rank (op : Op) : Nat := (Position.ofOp? op).elim 0 Position.rank

namespace Op

variable {op : Op} {ops : List Op} {p : Position}

/-- An op ranks as its position does. -/
theorem rank_of_ofOp? (h : Position.ofOp? op = some p) : op.rank = p.rank := by
  rw [rank, h, Option.elim_some]

/-- The position of an op hangs on its name alone. -/
theorem rankOfName_name (op : Op) : Position.rankOfName op.name = op.rank := by
  have hparse : parse? op.name .float = some { op with precision := .float } :=
    parse?_eq_some_iff.2 ⟨rfl, rfl⟩
  rw [Position.rankOfName, Position.ofOpName?, hparse]
  rfl

/-- Sorting leaves ops that stand in order already. -/
theorem byPosition_of_sorted (hplaced : ∀ op ∈ ops, ∃ p, Position.ofOp? op = some p)
    (hsorted : ops.Pairwise (·.rank ≤ ·.rank)) : byPosition ops = ops := by
  induction ops with
  | nil => simp [byPosition]
  | cons op ops ih =>
    obtain ⟨⟨p, hp⟩, hothers⟩ := List.forall_mem_cons.1 hplaced
    obtain ⟨hleast, hsorted⟩ := List.pairwise_cons.1 hsorted
    obtain ⟨before, after, hall⟩ := List.append_of_mem p.mem_all
    have hrising := Position.pairwise_all
    rw [hall, List.pairwise_append, List.pairwise_cons] at hrising
    obtain ⟨-, ⟨hafter, -⟩, hbefore⟩ := hrising
    -- Nothing stands at an earlier position, neither with the first op nor without it.
    have hnone : ∀ q ∈ before, ∀ op' ∈ op :: ops, Position.ofOp? op' ≠ some q := by
      intro q hq op' hop' hplace
      have hlt := hbefore q hq p List.mem_cons_self
      have hle : op.rank ≤ op'.rank := by
        rcases List.mem_cons.1 hop' with rfl | hop'
        · exact Nat.le_refl _
        · exact hleast op' hop'
      rw [rank_of_ofOp? hp, rank_of_ofOp? hplace] at hle
      omega
    have hearlier : ∀ l ⊆ op :: ops,
        before.flatMap (fun q => l.filter (Position.ofOp? · = some q)) = [] := by
      intro l hl
      refine List.flatMap_eq_nil_iff.2 fun q hq => List.filter_eq_nil_iff.2 fun op' hop' => ?_
      simpa using hnone q hq op' (hl hop')
    have hlater : ∀ q ∈ after, (op :: ops).filter (Position.ofOp? · = some q) =
        ops.filter (Position.ofOp? · = some q) := by
      intro q hq
      refine List.filter_cons_of_neg ?_
      rw [hp, decide_eq_true_eq, Option.some.injEq]
      exact ne_of_apply_ne Position.rank (Nat.ne_of_lt (hafter q hq))
    have hrest := ih hothers hsorted
    rw [byPosition, hall, List.flatMap_append, List.flatMap_cons] at hrest ⊢
    rw [hearlier _ (List.subset_cons_self ..), List.nil_append] at hrest
    rw [hearlier _ (List.Subset.refl _), List.nil_append, List.filter_cons_of_pos (by simp [hp]),
      List.cons_append, List.flatMap_congr hlater, hrest]

/-- Sorting by position is the stable sort by the rank of the position. -/
theorem byPosition_eq_mergeSort (hplaced : ∀ op ∈ ops, ∃ p, Position.ofOp? op = some p) :
    byPosition ops = ops.mergeSort fun a b => decide (a.rank ≤ b.rank) := by
  have htrans : ∀ a b c : Op, decide (a.rank ≤ b.rank) = true → decide (b.rank ≤ c.rank) = true →
      decide (a.rank ≤ c.rank) = true := by
    simp only [decide_eq_true_eq]
    exact fun _ _ _ => Nat.le_trans
  have htotal : ∀ a b : Op, (decide (a.rank ≤ b.rank) || decide (b.rank ≤ a.rank)) = true := by
    simp only [Bool.or_eq_true, decide_eq_true_eq]
    exact fun a b => Nat.le_total a.rank b.rank
  generalize hsort : ops.mergeSort (fun a b => decide (a.rank ≤ b.rank)) = sorted
  have hperm : sorted.Perm ops := hsort ▸ List.mergeSort_perm ops _
  have hrising : sorted.Pairwise (·.rank ≤ ·.rank) := by
    simpa [hsort] using List.pairwise_mergeSort htrans htotal ops
  -- Ops at one position are as good as sorted, so a stable sort leaves them in their order.
  have hstable : ∀ p, sorted.filter (Position.ofOp? · = some p) =
      ops.filter (Position.ofOp? · = some p) := by
    intro p
    have hlevel : (ops.filter (Position.ofOp? · = some p)).Pairwise
        fun a b => decide (a.rank ≤ b.rank) = true := by
      refine List.pairwise_of_forall_mem_list fun a ha b hb => ?_
      have hpa : Position.ofOp? a = some p := by simpa using (List.mem_filter.1 ha).2
      have hpb : Position.ofOp? b = some p := by simpa using (List.mem_filter.1 hb).2
      rw [rank_of_ofOp? hpa, rank_of_ofOp? hpb]
      exact decide_eq_true (Nat.le_refl _)
    have hsublist := (List.sublist_mergeSort htrans htotal hlevel List.filter_sublist).filter
      (Position.ofOp? · = some p)
    rw [List.filter_filter, hsort] at hsublist
    simp only [Bool.and_self] at hsublist
    exact (hsublist.eq_of_length (hperm.filter _).length_eq.symm).symm
  calc byPosition ops = byPosition sorted := by
        simp only [byPosition, hstable]
    _ = sorted := byPosition_of_sorted (fun op hop => hplaced op (hperm.mem_iff.1 hop)) hrising

/-- Sorted by position, the names of ops are their names in a stable sort. -/
theorem map_name_byPosition (hplaced : ∀ op ∈ ops, ∃ p, Position.ofOp? op = some p) :
    (byPosition ops).map name = (ops.map name).mergeSort fun a b =>
      decide (Position.rankOfName a ≤ Position.rankOfName b) := by
  rw [byPosition_eq_mergeSort hplaced]
  refine List.map_mergeSort fun a _ b _ => ?_
  rw [rankOfName_name, rankOfName_name]

/-- Sorting keeps each op that has a position as often as it was there. -/
theorem count_byPosition (h : Position.ofOp? op = some p) :
    (byPosition ops).count op = ops.count op := by
  have hfilter : ∀ l : List Op, (l.filter (Position.ofOp? · = some p)).count op = l.count op :=
    fun l => List.count_filter (by simpa using h)
  rw [← hfilter, filter_byPosition, hfilter]

end Op

/-! ## Additions to an order -/

namespace OpOrder

variable {order : OpOrder} {positions : List Position} {recipe : Recipe}

/-- What is sorted into an order stands at positions that do not fall, and that rise strictly if no
two ops stood at one position. -/
theorem StandsAt.sortIn (h : order.StandsAt positions) (hfits : recipe.Fits)
    (hmissing : order.at? recipe.position = none) :
    ∃ sorted, (order.sortIn ((recipe.additions order).map Op.stored)).StandsAt sorted ∧
      sorted.Pairwise (·.rank ≤ ·.rank) ∧
      (positions.Nodup → sorted.Pairwise (·.rank < ·.rank)) := by
  let all := positions ++ order.lacking recipe.position
  have hall : (order.ops ++ (recipe.additions order).map Op.stored).map Position.ofOp? =
      all.map some := by
    rw [List.map_append, List.map_append, map_additions hfits, h]
  refine ⟨_, Op.map_byPosition hall, ?_, fun hnodup => ?_⟩
  · refine List.pairwise_flatMap.2 ⟨fun p _ => ?_, ?_⟩
    · exact List.pairwise_replicate.2 (.inr (Nat.le_refl _))
    · refine Position.pairwise_all.imp fun hlt q hq r hr => ?_
      rw [List.eq_of_mem_replicate hq, List.eq_of_mem_replicate hr]
      exact Nat.le_of_lt hlt
  · have hsame := (Op.map_byPosition hall).symm.trans
      (Op.map_byPosition_of_nodup hall (h.nodup_lacking hnodup hmissing))
    rw [List.map_injective_iff.2 (fun _ _ => Option.some.inj) hsame]
    exact Position.pairwise_all.filter _

/-- What is sorted into an order is nothing that was there. -/
theorem count_sortIn (hfits : recipe.Fits) (hmissing : order.at? recipe.position = none)
    (hplaced : ∀ op ∈ order.ops, ∃ p, Position.ofOp? op = some p) {op : Op} (hop : op ∈ order.ops) :
    (order.sortIn ((recipe.additions order).map Op.stored)).ops.count op = order.ops.count op := by
  obtain ⟨p, hplace⟩ := hplaced op hop
  have hnew : op ∉ (recipe.additions order).map Op.stored := by
    intro hmem
    obtain ⟨q, hlacking, hq⟩ := ofOp?_of_mem_additions hfits hmem
    have hsome : (order.at? q).isSome := at?_isSome_iff.2 ⟨op, hop, hq⟩
    rcases mem_lacking.1 hlacking with rfl | ⟨-, hnone⟩
    · simp [hmissing] at hsome
    · simp [hnone] at hsome
  show (Op.byPosition _).count op = _
  rw [Op.count_byPosition hplace, List.count_append, List.count_eq_zero_of_not_mem hnew]
  rfl

end OpOrder

/-! ## Asking for an op -/

namespace Arrangement

variable {tx tx' : Transaction} {id : EntityId} {recipe : Recipe} {order : OpOrder} {op : Op}
  {positions : List Position}

/-- Where asking for an op succeeds on an order of the canonical stack, in which positions may be
missing, out of turn or taken more than once: the first op at the position is returned, and then
nothing is written or recorded; or the op of the recipe is, and then the names in the order are the
stable sort of the old ones followed by the new ones. -/
theorem ensure_finds_or_sorts_in
    (hplace : Position.ofOp? (recipe.op recipe.position.isInverse) = some recipe.position)
    (horder : tx.store.order id = .ok order) (hstands : order.StandsAt positions)
    (h : (ensure id recipe).on tx = (.ok op, tx')) :
    (∀ found, order.at? recipe.position = some found → op = found ∧ tx' = tx) ∧
    (order.at? recipe.position = none →
      op = recipe.op recipe.position.isInverse ∧
      ∃ after positions',
        tx'.store.order id = .ok after ∧ tx'.store.orderTokens? id = .ok (some after.tokens) ∧
        after.ops.map Op.name =
          ((order.ops ++ recipe.additions order).map Op.name).mergeSort
            (fun a b => decide (Position.rankOfName a ≤ Position.rankOfName b)) ∧
        after.resets = order.resets ∧
        (∀ earlier ∈ order.ops, after.ops.count earlier = order.ops.count earlier) ∧
        after.StandsAt positions' ∧ positions'.Pairwise (·.rank ≤ ·.rank) ∧
        (positions.Nodup → positions'.Pairwise (·.rank < ·.rank)) ∧
        ∀ id' name, ¬(id' = id ∧ (name = op.attributeName ∨ name = Op.orderName)) →
          tx'.store.find? id' name = tx.store.find? id' name) := by
  have hfits : recipe.Fits := by
    have hat := Position.ofOp?_eq_some_iff.1 hplace
    simp only [Position.isPlaceOf, Bool.and_eq_true] at hat
    exact hat.1.1
  obtain ⟨order', horder', hcases⟩ := ensure_eq_ok h
  obtain rfl : order = order' := Except.ok.inj (horder.symm.trans horder')
  refine ⟨fun found hfound => ?_, fun hmissing => ?_⟩
  · rcases hcases with ⟨hat, rfl⟩ | ⟨hmissing, -⟩
    · exact ⟨Option.some.inj (hat.symm.trans hfound), rfl⟩
    · rw [hmissing] at hfound
      cases hfound
  rcases hcases with ⟨hat, -⟩ | ⟨-, rfl, hplaced, hafter⟩
  · rw [hmissing] at hat
    cases hat
  -- The store as it is left gives the tokens and the frame; the order that is read from it gives
  -- the sorting and the positions.
  obtain ⟨-, -, -, -, refusals, -, hlayer⟩ :=
    (ensure_missing_iff hfits horder hmissing).1 ⟨tx', h, rfl⟩
  have hstore : tx'.store = _ := Session.store_eq hlayer
  have hhas := (Store.order_eq_ok_iff.1 horder).1
  have hplaced' := OpOrder.exists_ofOp?_of_additions hfits hplaced
  obtain ⟨positions', hstands', hlevel, hrising⟩ := hstands.sortIn hfits hmissing
  refine ⟨rfl, _, positions', hafter, ?_, ?_, rfl, ?_, hstands', hlevel, hrising, ?_⟩
  · rw [hstore]
    exact Store.orderTokens?_putTokens (by rw [Store.declare, Store.has_alter, hhas]) _
  · rw [Op.map_name_byPosition hplaced', List.map_append, List.map_map, List.map_append]
    rfl
  · exact fun earlier => OpOrder.count_sortIn hfits hmissing hplaced
  · intro id' name hother
    rw [hstore, Store.placed, Store.putTokens, Store.declare, Store.find?_alter, Store.find?_alter,
      if_neg fun hat => hother ⟨hat.1.symm, .inr hat.2.1.symm⟩,
      if_neg fun hat => hother ⟨hat.1.symm, .inl hat.2.1.symm⟩]

/-- An order in which two scales stand around a translation. -/
def unsorted : OpOrder where
  ops := [.make .scale .float none false, .make .translate .double none false,
    .make .scale .float none false]
  resets := true

/-- A transaction on a store with that order. -/
def unsortedStart : Transaction where
  layer := { store := Store.bare.run [.addOp default (.make .scale .float none false),
    .addOp default (.make .translate .double none false), .setOrder default unsorted] }

/-- A rotation pivot comes in with its inverse, and the two scales stay. -/
theorem ensure_sorts_in_rotatePivot :
    ∃ tx' after,
      (ensure default ⟨.rotatePivot, .translate, .float⟩).on unsortedStart =
        (.ok (.make .translate .float (some "rotatePivot") false), tx') ∧
      tx'.store.order default = .ok after ∧ after.resets ∧
      after.ops.count (.make .scale .float none false) = 2 ∧
      after.ops.map Op.name = ["xformOp:scale", "xformOp:translate", "xformOp:scale",
        "xformOp:translate:rotatePivot", "!invert!xformOp:translate:rotatePivot"].mergeSort
          fun a b => decide (Position.rankOfName a ≤ Position.rankOfName b) := by
  have horder : unsortedStart.store.order default = .ok unsorted := by decide +kernel
  have hok : ((ensure default ⟨.rotatePivot, .translate, .float⟩).on unsortedStart).1 =
      .ok (.make .translate .float (some "rotatePivot") false) := by
    decide +kernel
  have hrun : (ensure default ⟨.rotatePivot, .translate, .float⟩).on unsortedStart =
      (.ok (.make .translate .float (some "rotatePivot") false), _) := Prod.ext hok rfl
  have hstands : unsorted.StandsAt [.scale, .translate, .scale] := by
    rw [OpOrder.StandsAt]
    decide
  have hold : (unsorted.ops ++
      Recipe.additions ⟨.rotatePivot, .translate, .float⟩ unsorted).map Op.name =
        ["xformOp:scale", "xformOp:translate", "xformOp:scale", "xformOp:translate:rotatePivot",
          "!invert!xformOp:translate:rotatePivot"] := by
    decide +kernel
  obtain ⟨-, after, -, hafter, -, hnames, hresets, hcount, -⟩ :=
    (ensure_finds_or_sorts_in (by decide) horder hstands hrun).2 (by decide)
  rw [hold] at hnames
  exact ⟨_, after, hrun, hafter, hresets, hcount _ List.mem_cons_self, hnames⟩

end Arrangement

end TransformStack
