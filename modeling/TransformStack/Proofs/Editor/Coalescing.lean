import TransformStack.Proofs.Editor.Notices

/-!
# Guards that overlap

Guards may be released in any order, and listeners come and go while they are held. What a notifier
tells is settled by the history of the calls on it: nothing while a guard is held, then every change
since the outermost guard was taken, once and in the order of the first marks, to the listeners that
are there when the last guard is released.
-/

namespace TransformStack

/-- A call on a notifier whose listeners make no calls themselves. -/
inductive NotifierCall where
  | subscribe (name : String)
  | unsubscribe (listener : Nat)
  | guard (id : Nat)
  | release (id : Nat)
  | mark (entity : EntityId)

/-- The entity that a call marks. -/
def NotifierCall.entity? : NotifierCall → Option EntityId
  | mark entity => some entity
  | _ => none

namespace Notifier

/-- Make a call. The notifier does not see which guard is taken or released. -/
def make (n : Notifier) : NotifierCall → Notifier
  | .subscribe name => n.subscribe name .none
  | .unsubscribe listener => (n.detach listener).2
  | .guard _ => n.hold
  | .release _ => n.release
  | .mark entity => n.mark entity

/-! ## Histories -/

/-- The calls made so far, the latest first. -/
abbrev Past := List NotifierCall

/-- A new notifier after the calls. -/
def after : Past → Notifier
  | [] => {}
  | call :: past => (after past).make call

namespace Past

/-- The guards that are held. -/
def held : Past → List Nat
  | [] => []
  | .guard id :: past => id :: held past
  | .release id :: past => (held past).erase id
  | _ :: past => held past

/-- How many listeners were subscribed. -/
def subscribed : Past → Nat
  | [] => 0
  | .subscribe _ :: past => subscribed past + 1
  | _ :: past => subscribed past

/-- The listeners that are subscribed, in the order in which they came. -/
def present : Past → List Listener
  | [] => []
  | .subscribe name :: past => present past ++ [⟨subscribed past, name, .none⟩]
  | .unsubscribe listener :: past => (present past).filter (·.id ≠ listener)
  | _ :: past => present past

/-- The calls since the outermost guard was taken, the latest first, as long as one is held. -/
def episode : Past → Past
  | [] => []
  | call :: past =>
    if held past = [] ∨ held (call :: past) = [] then [] else call :: episode past

/-- The entities marked since the outermost guard was taken, in the order of their first marks. -/
def awaited (past : Past) : List EntityId :=
  ((episode past).reverse.filterMap NotifierCall.entity?).eraseDups

/-- What a call lets go: a mark that no guard holds back, or what the last guard held back. -/
def due (past : Past) : NotifierCall → List EntityId
  | .mark entity => if held past = [] then [entity] else []
  | .release id => if held past = [id] then awaited past else []
  | _ => []

/-- Only guards that are held are released. -/
def Orderly : Past → Prop
  | [] => True
  | .release id :: past => id ∈ held past ∧ Orderly past
  | _ :: past => Orderly past

/-- Calls were orderly before the last one if they are now. -/
theorem Orderly.tail {past : Past} {call : NotifierCall} (h : Orderly (call :: past)) :
    Orderly past := by
  cases call with
  | release id => exact h.2
  | _ => exact h

/-! ## What is awaited -/

variable {past : Past} {call : NotifierCall}

/-- Without a guard there is no episode. -/
theorem episode_of_free (h : held past = []) : episode past = [] := by
  cases past with
  | nil => rfl
  | cons call past => exact if_pos (.inr h)

/-- Without a guard nothing is awaited. -/
theorem awaited_of_free (h : held past = []) : awaited past = [] := by
  rw [awaited, episode_of_free h]
  rfl

/-- One more element is kept if it is new. -/
theorem eraseDups_concat {α : Type} [DecidableEq α] (xs : List α) (a : α) :
    (xs ++ [a]).eraseDups =
      if a ∈ xs.eraseDups then xs.eraseDups else xs.eraseDups ++ [a] := by
  rw [List.eraseDups_append]
  split
  · next hmem =>
    have hnone : [a].removeAll xs = [] := by
      simpa [List.removeAll] using List.mem_eraseDups.1 hmem
    rw [hnone, List.eraseDups_nil, List.append_nil]
  · next hmem =>
    have hnew : [a].removeAll xs = [a] := by
      simpa [List.removeAll] using fun h => hmem (List.mem_eraseDups.2 h)
    rw [hnew]
    rfl

/-- While a guard is held, a mark adds its entity, unless it is awaited. -/
theorem awaited_mark (h : held past ≠ []) (entity : EntityId) :
    awaited (.mark entity :: past) =
      if entity ∈ awaited past then awaited past else awaited past ++ [entity] := by
  have hheld : held (.mark entity :: past) ≠ [] := h
  have hepisode : episode (.mark entity :: past) = .mark entity :: episode past :=
    if_neg (by simp [h, hheld])
  rw [awaited, hepisode, List.reverse_cons, List.filterMap_append]
  exact eraseDups_concat _ _

/-- Other calls change nothing of it, unless they end it. -/
theorem awaited_of_unmarked (call : NotifierCall) (hcall : call.entity? = none)
    (hheld : held past = [] ∨ held (call :: past) ≠ []) :
    awaited (call :: past) = awaited past := by
  by_cases hfree : held past = []
  · have hepisode : episode (call :: past) = [] := if_pos (.inl hfree)
    rw [awaited, hepisode, awaited_of_free hfree]
    rfl
  · have hepisode : episode (call :: past) = call :: episode past :=
      if_neg (by simp [hfree, hheld.resolve_left hfree])
    rw [awaited, hepisode, List.reverse_cons, List.filterMap_append]
    simp [hcall, awaited]

/-- The listeners make no calls. -/
theorem reaction_of_present : ∀ l ∈ present past, l.reaction = .none := by
  induction past with
  | nil => exact List.forall_mem_nil _
  | cons call past ih =>
    intro l hl
    cases call with
    | subscribe name =>
      rcases List.mem_append.1 hl with hold | hnew
      · exact ih l hold
      · obtain rfl := List.mem_singleton.1 hnew
        rfl
    | unsubscribe listener => exact ih l (List.mem_filter.1 hl).1
    | guard id => exact ih l hl
    | release id => exact ih l hl
    | mark entity => exact ih l hl

end Past

/-! ## Following a history -/

open Past

/-- What a notifier knows of the calls on it. -/
structure Mirrors (past : Past) (n : Notifier) : Prop where
  depth : n.depth = (held past).length
  pending : n.pending = awaited past
  listeners : n.listeners = present past
  nextId : n.nextId = subscribed past

namespace Mirrors

variable {past : Past} {n : Notifier}

/-- A notifier is held exactly while a guard is. -/
theorem isHeld (h : n.Mirrors past) : n.isHeld = true ↔ held past ≠ [] := by
  rw [Notifier.isHeld, h.depth, decide_eq_true_iff, List.length_pos_iff]

/-- What is let go is told to those who are there, one entity after the other. -/
theorem emit (h : n.Mirrors past) (entities : List EntityId) :
    Notifier.emit entities n =
      { n with notices := announcement (present past) entities ++ n.notices } := by
  rw [emit_eq (h.listeners ▸ reaction_of_present), h.listeners]

/-- A mark is told at once or joins what is awaited. -/
theorem mark (h : n.Mirrors past) (entity : EntityId) :
    (n.mark entity).Mirrors (.mark entity :: past) ∧ (n.mark entity).notices =
      announcement (present past) (due past (.mark entity)) ++ n.notices := by
  by_cases hfree : held past = []
  · have hnotHeld : n.isHeld = false := by simpa [hfree] using h.isHeld
    have hdue : due past (.mark entity) = [entity] := if_pos hfree
    rw [mark_of_free hnotHeld, h.emit, hdue]
    refine ⟨⟨h.depth, ?_, h.listeners, h.nextId⟩, rfl⟩
    have hfree' : held (.mark entity :: past) = [] := hfree
    rw [awaited_of_free hfree', h.pending, awaited_of_free hfree]
  · have hdue : due past (.mark entity) = [] := if_neg hfree
    rw [mark_of_held (h.isHeld.2 hfree), hdue, announcement]
    refine ⟨⟨h.depth, ?_, h.listeners, h.nextId⟩, rfl⟩
    rw [awaited_mark hfree, h.pending]

/-- The release of the last guard lets go of what is awaited; any other tells nothing. -/
theorem release (h : n.Mirrors past) {id : Nat} (hid : id ∈ held past) :
    n.release.Mirrors (.release id :: past) ∧ n.release.notices =
      announcement (present past) (due past (.release id)) ++ n.notices := by
  have hlength : ((held past).erase id).length = n.depth - 1 := by
    rw [List.length_erase_of_mem hid, h.depth]
  by_cases hlast : held past = [id]
  · have hdepth : n.depth ≤ 1 := by simp [h.depth, hlast]
    have hheld : held (.release id :: past) = [] := by simp [held, hlast]
    have hdue : due past (.release id) = awaited past := if_pos hlast
    have hlisteners : { n with depth := 0, pending := [] }.listeners = present past := h.listeners
    rw [Notifier.release, releaseBy, if_pos hdepth, emit_eq (hlisteners ▸ reaction_of_present),
      hlisteners, hdue, h.pending]
    refine ⟨⟨?_, ?_, rfl, h.nextId⟩, rfl⟩
    · rw [hheld]
      rfl
    · rw [awaited_of_free hheld]
  · have hheld : held (.release id :: past) ≠ [] := by
      intro hnone
      rcases List.erase_eq_nil_iff.1 hnone with hnil | hone
      · rw [hnil] at hid
        cases hid
      · exact hlast hone
    have hdepth : ¬n.depth ≤ 1 := by
      have hpos := List.length_pos_iff.2 hheld
      rw [held, hlength] at hpos
      omega
    have hdue : due past (.release id) = [] := if_neg hlast
    rw [Notifier.release, releaseBy, if_neg hdepth, hdue, announcement]
    refine ⟨⟨hlength.symm, ?_, h.listeners, h.nextId⟩, rfl⟩
    rw [awaited_of_unmarked (.release id) rfl (.inr hheld), h.pending]

/-- Each call keeps the notifier in step with the history, and tells what is due. -/
theorem make (h : n.Mirrors past) (call : NotifierCall) (horderly : Orderly (call :: past)) :
    (n.make call).Mirrors (call :: past) ∧
      (n.make call).notices = announcement (present past) (due past call) ++ n.notices := by
  cases call with
  | subscribe name =>
    refine ⟨⟨h.depth, ?_, ?_, congrArg (· + 1) h.nextId⟩, rfl⟩
    · rw [awaited_of_unmarked (.subscribe name) rfl (Decidable.em _)]
      exact h.pending
    · show n.listeners ++ [⟨n.nextId, name, .none⟩] = _
      rw [h.listeners, h.nextId]
      rfl
  | unsubscribe listener =>
    refine ⟨⟨h.depth, ?_, ?_, h.nextId⟩, rfl⟩
    · rw [awaited_of_unmarked (.unsubscribe listener) rfl (Decidable.em _)]
      exact h.pending
    · show n.listeners.filter (·.id ≠ listener) = _
      rw [h.listeners]
      rfl
  | guard id =>
    refine ⟨⟨congrArg (· + 1) h.depth, ?_, h.listeners, h.nextId⟩, rfl⟩
    rw [awaited_of_unmarked (.guard id) rfl (.inr (List.cons_ne_nil id _))]
    exact h.pending
  | release id => exact h.release horderly.1
  | mark entity => exact h.mark entity

end Mirrors

/-- After any calls the notifier is in step with their history. -/
theorem mirrors_after {past : Past} (h : Orderly past) : (after past).Mirrors past := by
  induction past with
  | nil => exact ⟨rfl, rfl, rfl, rfl⟩
  | cons call past ih => exact ((ih h.tail).make call h).1

/-- Nothing waits unless a guard is held. A call tells those who are there, in the order in which
they came, of what is due: a mark at once if no guard is held, and every change since the outermost
guard was taken when the last guard is released. While a guard is held nothing is told. -/
theorem coalesced {past : Past} (h : Orderly past) :
    (held past = [] → (after past).pending = []) ∧
      ∀ call, Orderly (call :: past) →
        (after (call :: past)).notices =
          announcement (present past) (due past call) ++ (after past).notices ∧
        (held (call :: past) ≠ [] → (after (call :: past)).notices = (after past).notices) := by
  have hmirrors := mirrors_after h
  refine ⟨fun hfree => hmirrors.pending.trans (awaited_of_free hfree), fun call hcall => ?_⟩
  have htold := (hmirrors.make call hcall).2
  refine ⟨htold, fun hheld => ?_⟩
  have hnone : due past call = [] := by
    cases call with
    | mark entity => exact if_neg hheld
    | release id =>
      refine if_neg fun hlast => hheld ?_
      simp [held, hlast]
    | _ => rfl
  rw [hnone] at htold
  exact htold

/-- The guard taken first is released first, and of three listeners one leaves and one comes while
the other guard is held. -/
theorem coalesced_overlapping :
    let first : EntityId := ⟨0⟩
    let second : EntityId := ⟨1⟩
    let past : Past := [.subscribe "latecomer", .mark first, .unsubscribe 0, .mark second,
      .release 1, .guard 2, .mark first, .guard 1, .subscribe "constant", .subscribe "leaver"]
    Orderly past ∧ (after past).notices = [] ∧
      (after (.release 2 :: past)).notices =
        [.changed 2 "latecomer" second, .changed 1 "constant" second,
          .changed 2 "latecomer" first, .changed 1 "constant" first] := by
  intro first second past
  have horderly : Orderly past := by simp [past, Orderly, held]
  have hrelease : Orderly (.release 2 :: past) := by simp [past, Orderly, held]
  have hnone : (after past).notices = [] := by decide +kernel
  obtain ⟨-, htold⟩ := coalesced horderly
  have hlast := (htold (.release 2) hrelease).1
  rw [hnone] at hlast
  exact ⟨horderly, hnone, hlast⟩

end Notifier

end TransformStack
