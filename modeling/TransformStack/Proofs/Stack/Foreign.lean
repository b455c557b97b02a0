import TransformStack.Proofs.Stack.Gate

/-!
# Foreign ops

An op that stands at no position makes the handler of transform stacks leave the entity to the
handlers after it, as long as the order can be read up to a token that tells so. A token without an
attribute ends the reading, and with it the resolution, in a failure. So what counts is which comes
first: a token that dangles, or one that is the name of no op at all.
-/

namespace TransformStack

/-! ## Tokens that cannot be read -/

/-- The token is the name of no op, whatever the precision. -/
def Op.IsUnknown (token : String) : Prop := parts? (splitInverse token).1 = none

/-- No op is parsed from the unknown names, and from them only. -/
theorem Op.parse?_eq_none_iff {token : String} {precision : Precision} :
    parse? token precision = none ↔ IsUnknown token := by
  unfold parse? IsUnknown
  cases hparts : parts? (splitInverse token).1 <;> simp [hparts]

/-- The name of an op is not unknown. -/
theorem Op.not_isUnknown_name (op : Op) : ¬IsUnknown op.name := by
  rw [← @parse?_eq_none_iff _ op.precision, parse?_eq_some_iff.2 ⟨rfl, rfl⟩]
  exact Option.some_ne_none op

/-- A foreign name is foreign whatever the precision of the op that is read from it. -/
theorem Position.ofOp?_eq_none_of_name {op : Op} (h : ofOpName? op.name = none) :
    ofOp? op = none := by
  have hparse : Op.parse? op.name .float = some { op with precision := .float } :=
    Op.parse?_eq_some_iff.2 ⟨rfl, rfl⟩
  rw [ofOpName?, hparse] at h
  exact h

namespace Store

variable {s : Store} {id : EntityId} {token : String} {tokens : List String} {e : StoreError}

/-- No attribute is found for a token of the order. -/
def Dangles (s : Store) (id : EntityId) (token : String) : Prop :=
  ∀ record, s.record? id (Op.splitInverse token).1 ≠ .ok (some record)

/-- An op that was read does not dangle. -/
theorem not_dangles_of_readOp {op : Op} (h : s.readOp id token = .ok op) :
    ¬s.Dangles id token := by
  obtain ⟨rfl, record, hrecord, -⟩ := readOp_eq_ok_iff.1 h
  intro hdangles
  refine hdangles record ?_
  rwa [Op.splitInverse_name]

/-- A record that cannot be read is no unknown op. -/
theorem record?_ne_unknownOp (name op : String) :
    s.record? id name ≠ .error (.data (.unknownOp op)) := by
  intro h
  unfold record? at h
  split at h
  · cases h
  · next a _ => cases hdeclared : a.declared <;> rw [hdeclared, DeclaredType.read] at h <;> cases h

/-- An op whose attribute is there is read with the precision of the attribute. -/
theorem readOp_of_record {record : AttributeRecord}
    (h : s.record? id (Op.splitInverse token).1 = .ok (some record)) :
    s.readOp id token = StoreError.ofData (Op.read token record.type.precision) := by
  simp only [readOp, h]
  rfl

/-- Reading a token reports an unknown op only if the token has an attribute and is unknown. -/
theorem of_readOp_eq_unknownOp {name : String}
    (h : s.readOp id token = .error (.data (.unknownOp name))) :
    ¬s.Dangles id token ∧ Op.IsUnknown token := by
  cases hrecord : s.record? id (Op.splitInverse token).1 with
  | error e =>
    simp only [readOp, hrecord] at h
    cases h
    exact absurd hrecord (record?_ne_unknownOp _ _)
  | ok record =>
    cases record with
    | none =>
      simp only [readOp, hrecord] at h
      cases h
    | some record =>
      rw [readOp_of_record hrecord, Op.read] at h
      refine ⟨fun hdangles => hdangles record hrecord, ?_⟩
      rw [← @Op.parse?_eq_none_iff _ record.type.precision]
      split at h
      · cases h
      · assumption

/-- A token that has an attribute and cannot be read is reported as an unknown op. -/
theorem exists_unknownOp_of_readOp (h : s.readOp id token = .error e)
    (hdangles : ¬s.Dangles id token) : ∃ name, e = .data (.unknownOp name) := by
  simp only [Dangles, not_forall, not_not] at hdangles
  obtain ⟨record, hrecord⟩ := hdangles
  rw [readOp_of_record hrecord, Op.read] at h
  split at h
  · cases h
  · exact ⟨_, (Except.error.inj h).symm⟩

/-! ## Orders that tell of a foreign op -/

/-- A token that dangles comes after one that is unknown, so that reading never gets to it. -/
def TellsUnknown (s : Store) (id : EntityId) (tokens : List String) : Prop :=
  ∀ before token after, tokens.filter (· ≠ Op.resetToken) = before ++ token :: after →
    s.Dangles id token → ∃ unknown ∈ before, Op.IsUnknown unknown

/-- An order is read from its tokens one after the other. -/
theorem order_of_tokens (hhas : s.has id) (htokens : s.orderTokens? id = .ok (some tokens)) :
    s.order id = (⟨·, tokens.head? = some Op.resetToken⟩) <$>
      (tokens.filter (· ≠ Op.resetToken)).mapM (s.readOp id) := by
  obtain ⟨entity, hentity⟩ := has_iff.1 hhas
  simp only [order, hentity, htokens]
  rfl

/-- Where reading stops at a token that is unknown, any that dangles comes later. -/
theorem tellsUnknown_of_readOp {before after : List String}
    (hsplit : tokens.filter (· ≠ Op.resetToken) = before ++ token :: after)
    (hbefore : ∀ earlier ∈ before, ∃ op, s.readOp id earlier = .ok op)
    (hdangles : ¬s.Dangles id token) (hunknown : Op.IsUnknown token) :
    s.TellsUnknown id tokens := by
  intro before' token' after' hsplit' hdangles'
  have hne : token ≠ token' := fun h => hdangles (h ▸ hdangles')
  have hnotMem : token' ∉ before := fun hmem =>
    have ⟨_, hop⟩ := hbefore token' hmem
    not_dangles_of_readOp hop hdangles'
  refine ⟨token, ?_, hunknown⟩
  rcases List.append_eq_append_iff.1 (hsplit.symm.trans hsplit') with
    ⟨between, rfl, hrest⟩ | ⟨between, rfl, hrest⟩
  · cases between with
    | nil => exact absurd (List.cons.inj hrest).1 hne
    | cons first between =>
      obtain ⟨rfl, -⟩ := List.cons.inj hrest
      simp
  · cases between with
    | nil => exact absurd (List.cons.inj hrest).1.symm hne
    | cons first between =>
      obtain ⟨rfl, -⟩ := List.cons.inj hrest
      simp at hnotMem

/-- An order that can be read has no token that dangles. -/
theorem tellsUnknown_of_mapM {ops : List Op}
    (h : (tokens.filter (· ≠ Op.resetToken)).mapM (s.readOp id) = .ok ops) :
    s.TellsUnknown id tokens := by
  obtain ⟨hnames, hbacks⟩ := mapM_readOp_eq_ok_iff.1 h
  intro before token after hsplit hdangles
  have hmem : token ∈ ops.map Op.name := by
    rw [← hnames, hsplit]
    simp
  obtain ⟨op, hop, rfl⟩ := List.mem_map.1 hmem
  exact absurd hdangles (not_dangles_of_readOp (readOp_eq_ok_iff.2 ⟨rfl, hbacks op hop⟩))

/-- A foreign op keeps an order from having positions. -/
theorem mapM_ofOp?_eq_none {ops : List Op} {op : Op} (hop : op ∈ ops)
    (hforeign : Position.ofOp? op = none) : ops.mapM Position.ofOp? = none := by
  cases hpositions : ops.mapM Position.ofOp? with
  | none => rfl
  | some positions =>
    have hmem := List.mem_map_of_mem (f := Position.ofOp?) hop
    rw [OpOrder.mapM_ofOp?_eq_some_iff.1 hpositions, hforeign] at hmem
    simp at hmem

/-- An error of the order that is not about an unknown op is passed on. -/
theorem positions?_of_error (h : s.order id = .error e)
    (hknown : ∀ name, e ≠ .data (.unknownOp name)) :
    Gate.positions? s id = .error (.store e) := by
  unfold Gate.positions?
  rw [h]
  split
  · next heq => cases heq
  · next heq => exact absurd (Except.error.inj heq) (hknown _)
  · next heq => rw [Except.error.inj heq]

/-- An order with a foreign token is found to have one if it tells of an unknown token before any
that dangles. Else it cannot be read. -/
theorem positions?_of_foreign (hhas : s.has id) (htokens : s.orderTokens? id = .ok (some tokens))
    (hmem : token ∈ tokens) (hreset : token ≠ Op.resetToken)
    (hforeign : Position.ofOpName? token = none) :
    (s.TellsUnknown id tokens → Gate.positions? s id = .ok none) ∧
      (¬s.TellsUnknown id tokens → ∃ e, s.order id = .error e ∧
        Gate.positions? s id = .error (.store e)) := by
  have horder := order_of_tokens hhas htokens
  cases hread : (tokens.filter (· ≠ Op.resetToken)).mapM (s.readOp id) with
  | ok ops =>
    refine ⟨fun _ => ?_, fun hnot => absurd (tellsUnknown_of_mapM hread) hnot⟩
    rw [hread] at horder
    have hname : token ∈ ops.map Op.name := by
      rw [← (mapM_readOp_eq_ok_iff.1 hread).1]
      simp [hmem, hreset]
    obtain ⟨op, hop, rfl⟩ := List.mem_map.1 hname
    have hnone := mapM_ofOp?_eq_none hop (Position.ofOp?_eq_none_of_name hforeign)
    rw [Gate.positions?, horder]
    exact congrArg Except.ok hnone
  | error e =>
    rw [hread] at horder
    obtain ⟨before, stop, after, hsplit, hbefore, hstop⟩ := mapM_eq_error_iff.1 hread
    -- The first token that is not read decides: dangling, it stops the reading before an unknown
    -- one can be told; else it is unknown itself.
    by_cases hdangles : s.Dangles id stop
    · have hknown (name : String) : e ≠ .data (.unknownOp name) := by
        rintro rfl
        exact (of_readOp_eq_unknownOp hstop).1 hdangles
      refine ⟨fun htells => ?_, fun _ => ⟨e, horder, positions?_of_error horder hknown⟩⟩
      obtain ⟨unknown, hbefore', hunknown⟩ := htells before stop after hsplit hdangles
      obtain ⟨op, hop⟩ := hbefore unknown hbefore'
      obtain ⟨rfl, -⟩ := readOp_eq_ok_iff.1 hop
      exact absurd hunknown op.not_isUnknown_name
    · obtain ⟨name, rfl⟩ := exists_unknownOp_of_readOp hstop hdangles
      have hunknown := (of_readOp_eq_unknownOp hstop).2
      refine ⟨fun _ => ?_, fun hnot =>
        absurd (tellsUnknown_of_readOp hsplit hbefore hdangles hunknown) hnot⟩
      rw [Gate.positions?, horder]
      rfl

end Store

/-! ## Handlers -/

namespace Gate

variable {s : Store} {id : EntityId} {token : String} {tokens : List String} {time : TimeCode}

/-- The chain goes by what its first handler, that of transform stacks, says. -/
theorem resolve_stack_cons (s : Store) (id : EntityId) (time : TimeCode) (others : HandlerChain) :
    HandlerChain.resolve (Handler.stack time :: others) s id =
      (Gate.resolve s id time fun _ => .ok .delegate) >>= fun
        | .delegate => others.resolve s id
        | answer => .ok answer := by
  rfl

/-- An entity with a foreign op in its order is left to what comes next if the order tells of an
unknown token before any that dangles. Otherwise the order cannot be read, and this failure is the
answer, whatever comes next. -/
theorem resolve_of_foreign (hhas : s.has id) (htokens : s.orderTokens? id = .ok (some tokens))
    (hmem : token ∈ tokens) (hreset : token ≠ Op.resetToken)
    (hforeign : Position.ofOpName? token = none) :
    (s.TellsUnknown id tokens →
      (∀ next, Gate.resolve s id time next = next ()) ∧
        ∀ others, HandlerChain.resolve (Handler.stack time :: others) s id =
          HandlerChain.resolve others s id) ∧
      (¬s.TellsUnknown id tokens → ∃ e, s.order id = .error e ∧
        (∀ next, Gate.resolve s id time next = .error (.store e)) ∧
          ∀ others, HandlerChain.resolve (Handler.stack time :: others) s id =
            .error (.store e)) := by
  obtain ⟨htells, hnot⟩ := Store.positions?_of_foreign hhas htokens hmem hreset hforeign
  refine ⟨fun h => ?_, fun h => ?_⟩
  · have hnext (next : Unit → Except EditError Resolution) :
        Gate.resolve s id time next = next () := by
      rw [Gate.resolve, htells h]
      rfl
    refine ⟨hnext, fun others => ?_⟩
    rw [resolve_stack_cons, hnext]
    rfl
  · obtain ⟨e, horder, hpositions⟩ := hnot h
    have hfailed (next : Unit → Except EditError Resolution) :
        Gate.resolve s id time next = .error (.store e) := by
      rw [Gate.resolve, hpositions]
      rfl
    refine ⟨e, horder, hfailed, fun others => ?_⟩
    rw [resolve_stack_cons, hfailed]
    rfl

/-- An unknown op that has an attribute leaves the entity to the next handler. -/
theorem resolve_of_foreign_on_bare :
    let s := (Store.bare.declare default "xformOp:bogus" .float3).putTokens default
      ["xformOp:bogus"]
    HandlerChain.resolve [Handler.stack .default, Handler.catchAll] s default =
      .ok (.found (.other "catchAll" default)) := by
  intro s
  have hrecord : s.record? default (Op.splitInverse "xformOp:bogus").1 =
      .ok (some ⟨.float3, false⟩) := by
    decide +kernel
  have htells : s.TellsUnknown default ["xformOp:bogus"] := by
    have hsplit : ["xformOp:bogus"].filter (· ≠ Op.resetToken) =
        [] ++ "xformOp:bogus" :: [] := by
      decide
    have hunknown : Op.parts? (Op.splitInverse "xformOp:bogus").1 = none := by decide +kernel
    refine Store.tellsUnknown_of_readOp hsplit ?_ (fun hdangles => hdangles _ hrecord) hunknown
    simp
  exact ((resolve_of_foreign (by decide +kernel) (by decide +kernel) List.mem_cons_self
    (by decide +kernel) (by decide +kernel)).1 htells).2 [Handler.catchAll]

/-- An unknown op without an attribute does not. -/
theorem not_delegated_of_dangling :
    let s := Store.bare.putTokens default ["xformOp:bogus"]
    s.has default ∧ s.orderTokens? default = .ok (some ["xformOp:bogus"]) ∧
      "xformOp:bogus" ≠ Op.resetToken ∧ Position.ofOpName? "xformOp:bogus" = none ∧
      (Gate.resolve s default .default fun _ => .ok .delegate) ≠ .ok .delegate ∧
      HandlerChain.resolve [Handler.stack .default, Handler.catchAll] s default ≠
        HandlerChain.resolve [Handler.catchAll] s default := by
  decide +kernel

end Gate

end TransformStack
