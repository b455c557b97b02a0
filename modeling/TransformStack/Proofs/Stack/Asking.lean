import TransformStack.Proofs.Stack.Gate

/-!
# Asking for reading and for editing

A chain of handlers of transform stacks and handlers that take any entity answers an edit as it
answers reading, once the entity can be edited at all. Where it cannot, the edit is rejected before
any handler is asked. For the edit of a pivot the handlers that take any entity pass, so such a
chain answers as if they were not there.
-/

namespace TransformStack

/-! ## Asking one handler after the other -/

namespace HandlerChain

variable {question question' : Handler → Except EditError Resolution}

/-- A handler that leaves the entity to the next might as well not be there. -/
theorem ask_cons_of_delegate {handler : Handler} (h : question handler = .ok .delegate)
    (chain : HandlerChain) : ask question (handler :: chain) = ask question chain := by
  rw [ask, h]
  rfl

/-- Two questions that each handler of a chain answers alike are answered alike by the chain. -/
theorem ask_congr {chain : HandlerChain}
    (h : ∀ handler ∈ chain, question handler = question' handler) :
    chain.ask question = chain.ask question' := by
  induction chain with
  | nil => rfl
  | cons handler chain ih =>
    obtain ⟨hfirst, hothers⟩ := List.forall_mem_cons.1 h
    rw [ask, ask, hfirst, ih hothers]

/-- Handlers that pass can be left out of a chain. -/
theorem ask_map_filter {α : Type} (handler : α → Handler) (keep : α → Bool) {items : List α}
    (hpass : ∀ item ∈ items, keep item = false → question (handler item) = .ok .delegate) :
    ask question ((items.filter keep).map handler) = ask question (items.map handler) := by
  induction items with
  | nil => rfl
  | cons item items ih =>
    obtain ⟨hfirst, hothers⟩ := List.forall_mem_cons.1 hpass
    rw [List.filter_cons, List.map_cons]
    cases hkeep : keep item with
    | true => rw [if_pos rfl, List.map_cons, ask, ask, ih hothers]
    | false =>
      rw [if_neg Bool.false_ne_true, ask_cons_of_delegate (hfirst hkeep), ih hothers]

/-- An edit of a part of an instance, or of anything in a store that is closed, is rejected before
any handler is asked; the edit of anything else is up to the handlers. -/
theorem resolveForEdit_eq {s : Store} {id : EntityId} {e : Entity} (he : s.entity id = .ok e)
    (chain : HandlerChain) (hint : EditHint) :
    chain.resolveForEdit s id hint =
      if e.isProxy then .ok (.rejected (.proxy e.path))
      else if s.readOnly then .ok (.rejected (.barred .readOnly))
      else chain.ask fun handler => handler.resolveEdit hint s id := by
  unfold resolveForEdit Store.targetBar?
  rw [he]
  simp only [EditError.ofStore, Except.mapError, bind, Except.bind]
  cases e.isProxy with
  | true => rfl
  | false => cases s.readOnly <;> rfl

end HandlerChain

/-! ## Chains of two kinds of handlers -/

/-- A handler of transform stacks at a time, or one that takes any entity. -/
inductive Link where
  | stack (time : TimeCode)
  | catchAll

namespace Link

/-- The handler of a link. -/
def handler : Link → Handler
  | stack time => .stack time
  | catchAll => .catchAll

/-- Whether the handler of the link is one of transform stacks. -/
def isStack : Link → Bool
  | stack _ => true
  | catchAll => false

/-- The chain of links. -/
def chain (links : List Link) : HandlerChain := links.map handler

/-- An edit that is not of a pivot is answered as reading is. -/
theorem resolveEdit_default (link : Link) (s : Store) (id : EntityId) :
    link.handler.resolveEdit .default s id = link.handler.resolve s id := by
  cases link <;> rfl

/-- Handlers of transform stacks answer all edits as they answer reading. -/
theorem resolveEdit_of_isStack {link : Link} (h : link.isStack) (hint : EditHint) (s : Store)
    (id : EntityId) : link.handler.resolveEdit hint s id = link.handler.resolve s id := by
  cases link with
  | stack => rfl
  | catchAll => cases h

/-- The handlers that take any entity pass if a pivot is edited. -/
theorem resolveEdit_of_not_isStack {link : Link} (h : link.isStack = false) {hint : EditHint}
    (hpivot : hint ≠ .default) (s : Store) (id : EntityId) :
    link.handler.resolveEdit hint s id = .ok .delegate := by
  cases link with
  | stack => cases h
  | catchAll =>
    cases hint with
    | default => exact absurd rfl hpivot
    | rotatePivot | scalePivot => rfl

/-- A chain rejects every edit of a part of an instance, and every edit in a closed store, whatever
it answers to reading. Any other edit it answers as it answers reading, also with a failure, if no
pivot is edited; if one is, it answers as the chain of its handlers of transform stacks. -/
theorem resolveForEdit_agrees {s : Store} {id : EntityId} {e : Entity} (he : s.entity id = .ok e)
    (links : List Link) :
    (e.isProxy ∨ s.readOnly → ∀ hint, ∃ why,
      (chain links).resolveForEdit s id hint = .ok (.rejected why)) ∧
    (e.isProxy = false → s.readOnly = false →
      (chain links).resolveForEdit s id .default = (chain links).resolve s id ∧
      ∀ hint, hint ≠ .default →
        (chain links).resolveForEdit s id hint = (chain (links.filter isStack)).resolve s id) := by
  refine ⟨fun hbarred hint => ?_, fun hproxy hopen => ⟨?_, fun hint hpivot => ?_⟩⟩
  · rw [HandlerChain.resolveForEdit_eq he]
    split
    · exact ⟨_, rfl⟩
    · next hproxy =>
      rw [if_pos (hbarred.resolve_left hproxy)]
      exact ⟨_, rfl⟩
  · rw [HandlerChain.resolveForEdit_eq he, hproxy, hopen]
    refine HandlerChain.ask_congr fun handler hhandler => ?_
    obtain ⟨link, -, rfl⟩ := List.mem_map.1 hhandler
    exact link.resolveEdit_default s id
  · rw [HandlerChain.resolveForEdit_eq he, hproxy, hopen]
    have hleft : (chain (links.filter isStack)).ask (·.resolveEdit hint s id) =
        (chain links).ask (·.resolveEdit hint s id) :=
      HandlerChain.ask_map_filter handler isStack fun link _ hlink =>
        resolveEdit_of_not_isStack hlink hpivot s id
    refine hleft.symm.trans (HandlerChain.ask_congr fun handler hhandler => ?_)
    obtain ⟨link, hlink, rfl⟩ := List.mem_map.1 hhandler
    exact resolveEdit_of_isStack (List.mem_filter.1 hlink).2 hint s id

/-- A token without an attribute makes reading fail, but not the rejection in a closed store. In the
open store the edit of a pivot passes the handler that takes any entity, and fails after it. -/
theorem resolveForEdit_agrees_on_dangling :
    let links := [catchAll, stack .default]
    let s := Store.bare.putTokens default ["xformOp:scale"]
    let closed := { s with readOnly := true }
    let failure := EditError.store (.notFound (.opAttribute "xformOp:scale" default))
    (chain [stack .default]).resolve closed default = .error failure ∧
      (∃ why, (chain [stack .default]).resolveForEdit closed default .default =
        .ok (.rejected why)) ∧
      (chain links).resolveForEdit s default .default = .ok (.found (.other "catchAll" default)) ∧
      (chain links).resolveForEdit s default .rotatePivot = .error failure := by
  intro links s closed failure
  have hfails : (chain [stack .default]).resolve s default = .error failure := by decide +kernel
  have hproxy : (s.entity default).map Entity.isProxy = .ok false := by decide +kernel
  obtain ⟨e, hentity⟩ := Store.has_iff.1 (by decide +kernel : s.has default)
  rw [hentity] at hproxy
  obtain ⟨-, hagrees⟩ := resolveForEdit_agrees hentity links
  obtain ⟨hdefault, hpivot⟩ := hagrees (Except.ok.inj hproxy) rfl
  have hclosed : closed.entity default = .ok e := hentity
  obtain ⟨hbarred, -⟩ := resolveForEdit_agrees hclosed [stack .default]
  refine ⟨by decide +kernel, hbarred (.inr rfl) .default, hdefault.trans rfl, ?_⟩
  exact (hpivot .rotatePivot (by decide)).trans hfails

end Link

end TransformStack
