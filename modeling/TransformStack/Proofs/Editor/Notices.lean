import TransformStack.Editor.Notifier

/-!
# Laws of notices

Listeners have identifiers of their own, and changes wait to be told only while notices are held
back. Both hold of every notifier, whatever the listeners do when they are told: what they announce
meanwhile reaches only the listeners that join, so each listener that was there is told exactly what
is let go, once and in order.
-/

namespace TransformStack

namespace Notifier

variable {n : Notifier} {k : Nat}

/-! ## What listeners are told -/

/-- The change that a notice tells a listener of. -/
def changeTold? (listener : Nat) : Notice → Option EntityId
  | .changed id _ entity => if id = listener then some entity else none
  | .unsubscribed .. => none

/-- The changes that a listener has been told of, the latest first. -/
def toldTo (n : Notifier) (listener : Nat) : List EntityId :=
  n.notices.filterMap (changeTold? listener)

/-- What a listener was told of depends on the notices. -/
theorem toldTo_congr {n' : Notifier} (h : n'.notices = n.notices) (listener : Nat) :
    n'.toldTo listener = n.toldTo listener := by
  rw [toldTo, h, toldTo]

/-- A notice tells the listeners that it is meant for. -/
theorem toldTo_record (n : Notifier) (notice : Notice) (listener : Nat) :
    (n.record notice).toldTo listener =
      (changeTold? listener notice).toList ++ n.toldTo listener := by
  rw [toldTo, record, List.filterMap_cons]
  cases changeTold? listener notice <;> rfl

/-- What an audience is told of entities, the latest first: one entity after the other, each to one
listener after the other. -/
def announcement (audience : List Listener) (entities : List EntityId) : List Notice :=
  (entities.flatMap fun entity => audience.map fun l => .changed l.id l.name entity).reverse

/-- Telling an audience adds its notices, and nothing else. -/
theorem tell_eq (audience : List Listener) (entities : List EntityId) (n : Notifier) :
    tell audience entities n =
      { n with notices := announcement audience entities ++ n.notices } := by
  have hround : ∀ (audience : List Listener) (entity : EntityId) (n : Notifier),
      audience.foldl (fun n l => n.record (.changed l.id l.name entity)) n =
        { n with notices :=
            (audience.map fun l => .changed l.id l.name entity).reverse ++ n.notices } := by
    intro audience entity n
    induction audience generalizing n with
    | nil => rfl
    | cons l audience ih =>
      rw [List.foldl_cons, ih]
      simp [record]
  unfold tell
  induction entities generalizing n with
  | nil => rfl
  | cons entity entities ih =>
    rw [List.foldl_cons, ih, hround]
    simp [announcement]

/-- Listeners who are not in the audience are not told. -/
theorem toldTo_tell {audience : List Listener} {entities : List EntityId} {listener : Nat}
    (h : ∀ l ∈ audience, l.id ≠ listener) :
    (tell audience entities n).toldTo listener = n.toldTo listener := by
  have hnone : (announcement audience entities).filterMap (changeTold? listener) = [] := by
    refine List.filterMap_eq_nil_iff.2 fun notice hnotice => ?_
    obtain ⟨entity, -, hmem⟩ := List.mem_flatMap.1 (List.mem_reverse.1 hnotice)
    obtain ⟨l, hl, rfl⟩ := List.mem_map.1 hmem
    exact if_neg (h l hl)
  rw [tell_eq, toldTo, List.filterMap_append, hnone]
  rfl

/-! ## Notifiers as they can be -/

/-- Listeners have identifiers of their own, and no change waits to be told unless notices are held
back. -/
structure Sound (n : Notifier) : Prop where
  distinct : (n.listeners.map (·.id)).Nodup
  below : ∀ l ∈ n.listeners, l.id < n.nextId
  settled : n.depth = 0 → n.pending = []

/-- A notifier stays sound when a listener is attached. -/
theorem Sound.attach (h : n.Sound) (name : String) (reaction : Reaction) :
    (n.attach name reaction).Sound := by
  refine ⟨?_, ?_, h.settled⟩
  · simp only [Notifier.attach, List.map_append, List.map_cons, List.map_nil]
    refine List.nodup_append.2 ⟨h.distinct, by simp, fun id hold id' hnew => ?_⟩
    obtain ⟨l, hl, rfl⟩ := List.mem_map.1 hold
    obtain rfl := List.mem_singleton.1 hnew
    exact Nat.ne_of_lt (h.below l hl)
  · intro l hl
    rcases List.mem_append.1 hl with hold | hnew
    · exact Nat.lt_succ_of_lt (h.below l hold)
    · obtain rfl := List.mem_singleton.1 hnew
      exact Nat.lt_succ_self _

/-- A notifier stays sound when a listener subscribes. -/
theorem Sound.subscribe (h : n.Sound) (name : String) (reaction : Reaction) :
    (n.subscribe name reaction).Sound :=
  ⟨(h.attach name reaction).distinct, (h.attach name reaction).below, h.settled⟩

/-- A notifier stays sound when a listener is detached. -/
theorem Sound.detach (h : n.Sound) (id : Nat) : (n.detach id).2.Sound :=
  ⟨h.distinct.sublist (List.filter_sublist.map _),
    fun l hl => h.below l (List.mem_filter.1 hl).1, h.settled⟩

/-- A notifier stays sound when a listener unsubscribes. -/
theorem Sound.unsubscribe (h : n.Sound) (name : String) : (n.unsubscribe name).2.Sound := by
  unfold Notifier.unsubscribe
  split
  · exact h
  · exact h.detach _

/-! ## Telling with reactions -/

/-- While the listeners below an identifier are told, they are detached: only those that joined
meanwhile are attached, and nothing is held back. -/
structure Telling (k : Nat) (n : Notifier) : Prop extends n.Sound where
  depth : n.depth = 0
  le : k ≤ n.nextId
  newcomers : ∀ l ∈ n.listeners, k ≤ l.id

/-- Telling newcomers tells nobody else. -/
theorem Telling.tell (h : n.Telling k) (entities : List EntityId) :
    (emitToNewcomers entities n).Telling k ∧
      ∀ id < k, (emitToNewcomers entities n).toldTo id = n.toldTo id := by
  refine ⟨?_, fun id hid => toldTo_tell fun l hl heq => ?_⟩
  · rw [emitToNewcomers, tell_eq]
    exact ⟨⟨h.distinct, h.below, h.settled⟩, h.depth, h.le, h.newcomers⟩
  · exact absurd (h.newcomers l hl) (by omega)

/-- Taking down a notice leaves the listeners detached. -/
theorem Telling.record (h : n.Telling k) (notice : Notice) : (n.record notice).Telling k :=
  ⟨⟨h.distinct, h.below, h.settled⟩, h.depth, h.le, h.newcomers⟩

/-- A listener that subscribes meanwhile joins the newcomers. -/
theorem Telling.subscribe (h : n.Telling k) (name : String) (reaction : Reaction) :
    (n.subscribe name reaction).Telling k := by
  refine ⟨h.toSound.subscribe name reaction, h.depth, Nat.le_succ_of_le h.le, fun l hl => ?_⟩
  rcases List.mem_append.1 hl with hold | hnew
  · exact h.newcomers l hold
  · obtain rfl := List.mem_singleton.1 hnew
    exact h.le

/-- A listener that unsubscribes meanwhile leaves the newcomers. -/
theorem Telling.unsubscribe (h : n.Telling k) (name : String) :
    (n.unsubscribe name).2.Telling k := by
  have hsound := h.toSound.unsubscribe name
  unfold Notifier.unsubscribe at hsound ⊢
  split at hsound
  · exact h
  · exact ⟨hsound, h.depth, h.le, fun l hl => h.newcomers l (List.mem_filter.1 hl).1⟩

/-- Announcing a change twice under a hold of its own comes to announcing it once. -/
theorem guardedMark_eq (h : n.Telling k) (target : EntityId) :
    ((n.hold.markBy emitToNewcomers target).markBy emitToNewcomers target).releaseBy
      emitToNewcomers = emitToNewcomers [target] n := by
  have hpending := h.settled h.depth
  have hdepth := h.depth
  obtain ⟨depth, pending, listeners, nextId, directory, notices⟩ := n
  subst hpending hdepth
  simp [markBy, releaseBy, isHeld, hold]

/-- Whatever a listener does, the listeners that are detached are told nothing of it. -/
theorem Telling.react (h : n.Telling k) (l : Listener) (entity : EntityId) :
    (n.react l entity).Telling k ∧
      ∀ id < k, (n.react l entity).toldTo id = n.toldTo id := by
  unfold Notifier.react
  split
  · exact ⟨h, fun _ _ => rfl⟩
  · next target _ =>
    have hmark : n.markBy emitToNewcomers target = emitToNewcomers [target] n :=
      if_neg (by simp [isHeld, h.depth])
    rw [hmark]
    exact h.tell [target]
  · next target _ =>
    rw [guardedMark_eq h]
    exact h.tell [target]
  · split
    · exact ⟨h, fun _ _ => rfl⟩
    · exact ⟨h.subscribe _ _, fun _ _ => rfl⟩
  · next name _ =>
    have hnotices : (n.unsubscribe name).2.notices = n.notices := by
      unfold Notifier.unsubscribe
      split <;> rfl
    refine ⟨(h.unsubscribe name).record _, fun id _ => ?_⟩
    rw [toldTo_record, toldTo_congr hnotices]
    rfl

/-- Telling one listener tells no other that was there. -/
theorem Telling.tellOne (h : n.Telling k) (l : Listener) (entity : EntityId) :
    (n.tellOne entity l).Telling k ∧ ∀ id < k, (n.tellOne entity l).toldTo id =
      (if l.id = id then [entity] else []) ++ n.toldTo id := by
  obtain ⟨htelling, htold⟩ :=
    (h.record (.changed l.id l.name entity)).react l entity
  refine ⟨htelling, fun id hid => ?_⟩
  rw [Notifier.tellOne, htold id hid, toldTo_record]
  simp only [changeTold?]
  split <;> rfl

/-- Telling an audience of a change tells each of its listeners as often as it is there. -/
theorem Telling.tellAll (h : n.Telling k) (audience : List Listener) (entity : EntityId) :
    (audience.foldl (Notifier.tellOne entity) n).Telling k ∧
      ∀ id < k, (audience.foldl (Notifier.tellOne entity) n).toldTo id =
        List.replicate ((audience.map (·.id)).count id) entity ++ n.toldTo id := by
  induction audience generalizing n with
  | nil => exact ⟨h, fun _ _ => rfl⟩
  | cons l audience ih =>
    obtain ⟨hone, htold⟩ := h.tellOne l entity
    obtain ⟨hall, hrest⟩ := ih hone
    refine ⟨hall, fun id hid => ?_⟩
    rw [List.foldl_cons, hrest id hid, htold id hid, List.map_cons, List.count_cons]
    split <;> simp_all [List.replicate_succ']

/-- Each listener of the audience is told of each change once, and in their order. -/
theorem Telling.tellEach {audience : List Listener} (haudience : (audience.map (·.id)).Nodup)
    (h : n.Telling k) (entities : List EntityId) :
    let told := entities.foldl (fun n entity => audience.foldl (Notifier.tellOne entity) n) n
    told.Telling k ∧
      ∀ l ∈ audience, l.id < k → told.toldTo l.id = entities.reverse ++ n.toldTo l.id := by
  induction entities generalizing n with
  | nil => exact ⟨h, fun _ _ _ => rfl⟩
  | cons entity entities ih =>
    obtain ⟨hone, htold⟩ := h.tellAll audience entity
    obtain ⟨hall, hrest⟩ := ih hone
    refine ⟨hall, fun l hl hid => ?_⟩
    -- Nobody is in the audience twice, so a round over it tells each listener once.
    have hcount : (audience.map (·.id)).count l.id = 1 := by
      rw [haudience.count, if_pos (List.mem_map_of_mem hl)]
    rw [List.foldl_cons, hrest l hl hid, htold l.id hid, hcount]
    simp

/-- A sound notifier is ready to tell its listeners. -/
theorem Sound.telling (h : n.Sound) (hdepth : n.depth = 0) :
    { n with listeners := [] }.Telling n.nextId :=
  ⟨⟨List.nodup_nil, List.forall_mem_nil _, h.settled⟩, hdepth, Nat.le_refl _,
    List.forall_mem_nil _⟩

/-- Letting changes go tells each listener of each change once and in order. -/
theorem Sound.emit (h : n.Sound) (hdepth : n.depth = 0) (entities : List EntityId) :
    (emit entities n).Sound ∧ ∀ l ∈ n.listeners,
      (emit entities n).toldTo l.id = entities.reverse ++ n.toldTo l.id := by
  obtain ⟨htold, heach⟩ := (h.telling hdepth).tellEach h.distinct entities
  refine ⟨⟨?_, ?_, htold.settled⟩, fun l hl => heach l hl (h.below l hl)⟩
  · simp only [Notifier.emit, List.map_append]
    refine List.nodup_append.2 ⟨h.distinct, htold.distinct, fun id hold id' hnew => ?_⟩
    obtain ⟨l, hl, rfl⟩ := List.mem_map.1 hold
    obtain ⟨l', hl', rfl⟩ := List.mem_map.1 hnew
    exact Nat.ne_of_lt (Nat.lt_of_lt_of_le (h.below l hl) (htold.newcomers l' hl'))
  · intro l hl
    rcases List.mem_append.1 hl with hold | hnew
    · exact Nat.lt_of_lt_of_le (h.below l hold) htold.le
    · exact htold.below l hnew

/-- Telling listeners holds nothing back. -/
theorem Sound.depth_emit (h : n.Sound) (hdepth : n.depth = 0) (entities : List EntityId) :
    (Notifier.emit entities n).depth = 0 :=
  ((h.telling hdepth).tellEach h.distinct entities).1.depth

/-- Letting changes go keeps the listeners. -/
theorem mem_listeners_emit {l : Listener} (hl : l ∈ n.listeners) (entities : List EntityId) :
    l ∈ (emit entities n).listeners :=
  List.mem_append_left _ hl

/-- There is nothing to tell of no entities. -/
theorem emit_nil (n : Notifier) : emit [] n = n := by
  simp [emit]

/-- Listeners that do nothing else are told, and that is all. -/
theorem emit_eq (h : ∀ l ∈ n.listeners, l.reaction = .none) (entities : List EntityId) :
    emit entities n = { n with notices := announcement n.listeners entities ++ n.notices } := by
  have hround : ∀ (audience : List Listener), (∀ l ∈ audience, l.reaction = .none) →
      ∀ entity n, audience.foldl (Notifier.tellOne entity) n =
        audience.foldl (fun n l => n.record (.changed l.id l.name entity)) n := by
    intro audience haudience entity n
    induction audience generalizing n with
    | nil => rfl
    | cons l audience ih =>
      obtain ⟨hl, hothers⟩ := List.forall_mem_cons.1 haudience
      have hone : Notifier.tellOne entity n l = n.record (.changed l.id l.name entity) := by
        rw [Notifier.tellOne, Notifier.react, hl]
      rw [List.foldl_cons, List.foldl_cons, hone, ih hothers]
  have htell : emit entities n =
      let told := tell n.listeners entities { n with listeners := [] }
      { told with listeners := n.listeners ++ told.listeners } := by
    simp only [emit, tell, hround n.listeners h]
  rw [htell, tell_eq]
  simp

/-! ## Announcing and letting go -/

/-- While notices are held back a change joins those that wait, unless it is among them. -/
theorem mark_of_held (hheld : n.isHeld = true) (id : EntityId) :
    n.mark id = { n with pending :=
      if id ∈ n.pending then n.pending else n.pending ++ [id] } := by
  rw [mark, markBy, if_pos hheld]
  split <;> rfl

/-- A change is told at once while no notices are held back. -/
theorem mark_of_free (hfree : n.isHeld = false) (id : EntityId) : n.mark id = emit [id] n :=
  if_neg (by simp [hfree])

/-- Notices are let through when no hold is left. -/
theorem isHeld_eq_false_iff : n.isHeld = false ↔ n.depth = 0 := by
  simp [isHeld]

/-- Marking an entity leaves a notifier sound. -/
theorem Sound.mark (h : n.Sound) (id : EntityId) : (n.mark id).Sound := by
  cases hheld : n.isHeld with
  | false =>
    rw [mark_of_free hheld]
    exact (h.emit (isHeld_eq_false_iff.1 hheld) [id]).1
  | true =>
    rw [mark_of_held hheld]
    refine ⟨h.distinct, h.below, fun hdepth => ?_⟩
    have hfree : n.isHeld = false := isHeld_eq_false_iff.2 hdepth
    rw [hheld] at hfree
    cases hfree

/-- Holding notices back leaves a notifier sound. -/
theorem Sound.hold (h : n.Sound) : n.hold.Sound :=
  ⟨h.distinct, h.below, fun hdepth => nomatch hdepth⟩

/-- Releasing a hold leaves a notifier sound. -/
theorem Sound.release (h : n.Sound) : n.release.Sound := by
  unfold Notifier.release releaseBy
  split
  · have hfree : { n with depth := 0, pending := [] }.Sound :=
      ⟨h.distinct, h.below, fun _ => rfl⟩
    exact (hfree.emit rfl n.pending).1
  · exact ⟨h.distinct, h.below, fun hdepth => absurd hdepth (by simp; omega)⟩

/-- Announcing a change again while notices are held back changes nothing. -/
theorem mark_mark (hheld : n.isHeld = true) (id : EntityId) : (n.mark id).mark id = n.mark id := by
  have hheld' : (n.mark id).isHeld = true := by
    rw [mark_of_held hheld]
    exact hheld
  rw [mark_of_held hheld', mark_of_held hheld]
  by_cases hmem : id ∈ n.pending <;> simp [hmem]

/-- Notices are held back by a hold. -/
theorem isHeld_hold (n : Notifier) : n.hold.isHeld = true := by
  simp [isHeld, hold]

/-- A hold around a single change, or around none, makes no difference. -/
theorem Sound.release_hold (h : n.Sound) (id : EntityId) :
    n.hold.release = n ∧ (n.hold.mark id).release = n.mark id := by
  rw [mark_of_held n.isHeld_hold]
  cases hheld : n.isHeld with
  | true =>
    have hdepth : ¬n.depth + 1 ≤ 1 := by
      have hpos : 0 < n.depth := by simpa [isHeld] using hheld
      omega
    rw [mark_of_held hheld]
    exact ⟨if_neg hdepth, if_neg hdepth⟩
  -- Without an outer hold the release lets go of what waits: the entity, if it was marked.
  | false =>
    have hdepth := isHeld_eq_false_iff.1 hheld
    have hpending := h.settled hdepth
    obtain ⟨depth, pending, listeners, nextId, directory, notices⟩ := n
    subst hdepth hpending
    rw [mark_of_free hheld]
    exact ⟨emit_nil _, rfl⟩

/-! ## Every notifier -/

/-- A notifier after any calls, whatever its listeners do. -/
inductive Reached : Notifier → Prop where
  | fresh : Reached {}
  | attach {n : Notifier} (name : String) (reaction : Reaction) (h : Reached n) :
      Reached (n.attach name reaction)
  | subscribe {n : Notifier} (name : String) (reaction : Reaction) (h : Reached n) :
      Reached (n.subscribe name reaction)
  | detach {n : Notifier} (id : Nat) (h : Reached n) : Reached (n.detach id).2
  | unsubscribe {n : Notifier} (name : String) (h : Reached n) : Reached (n.unsubscribe name).2
  | hold {n : Notifier} (h : Reached n) : Reached n.hold
  | mark {n : Notifier} (id : EntityId) (h : Reached n) : Reached (n.mark id)
  | release {n : Notifier} (h : Reached n) : Reached n.release

/-- A notifier is sound after any calls. -/
theorem Reached.sound (h : n.Reached) : n.Sound := by
  induction h with
  | fresh => exact ⟨List.nodup_nil, List.forall_mem_nil _, fun _ => rfl⟩
  | attach name reaction h ih => exact ih.attach name reaction
  | subscribe name reaction h ih => exact ih.subscribe name reaction
  | detach id h ih => exact ih.detach id
  | unsubscribe name h ih => exact ih.unsubscribe name
  | hold h ih => exact ih.hold
  | mark id h ih => exact ih.mark id
  | release h ih => exact ih.release

/-- Following signals is making calls. -/
theorem Reached.follow (h : n.Reached) (signals : List Signal) :
    (signals.foldl Notifier.follow n).Reached := by
  induction signals generalizing n with
  | nil => exact h
  | cons signal signals ih =>
    refine ih ?_
    cases signal with
    | hold => exact h.hold
    | changed id => exact h.mark id
    | release => exact h.release

end Notifier

end TransformStack
