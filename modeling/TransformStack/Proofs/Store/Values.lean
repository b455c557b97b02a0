import TransformStack.Proofs.Store.Runs
import TransformStack.Proofs.Store.Sampling

/-!
# What is authored at a time, and what is held there

A run of calls that create and remove attributes and author and clear values leaves at each time
what was authored there last, unless it was taken back since. Nothing else shows: no value at
another time, of another attribute, or of an attribute that was removed and created again. A reader
at a sample time sees the sample that is held there, and the value that does not vary only where
nothing is sampled.
-/

namespace TransformStack

/-! ## Attributes that can be read -/

/-- An attribute declares a type, holds values, and holds them at times. -/
structure Attribute.Legible (a : Attribute) : Prop where
  declared : ∃ type, a.declared = .known type
  fixed : ∀ cell, a.fixed = some cell → ∃ v, cell = .value v
  samples : ∀ (place : SampleTime) cell, a.samples[place]? = some cell →
    (∃ v, cell = .value v) ∧ ∃ time, SampleTime.of? time = some place

namespace Attribute

variable {a : Attribute} {c : Option Cell} {time : TimeCode}

/-- An attribute without a value is legible. -/
theorem Legible.ofType (type : ValueType) : (Attribute.ofType type).Legible where
  declared := ⟨type, rfl⟩
  fixed := nofun
  samples place cell hcell := by simp [Attribute.ofType] at hcell

/-- Writing a value keeps an attribute legible. -/
theorem Legible.setCell (h : a.Legible) (time : TimeCode)
    (hc : ∀ cell, c = some cell → ∃ v, cell = .value v) : (a.setCell c time).Legible := by
  refine ⟨?_, fun cell hcell => ?_, fun place cell hcell => ?_⟩
  · rw [declared_setCell]
    exact h.declared
  · exact (fixed_setCell hcell).elim (h.fixed cell) (hc cell)
  · cases time with
    | default => exact h.samples place cell hcell
    | sample x =>
      rw [Attribute.setCell] at hcell
      split at hcell
      · next p hp =>
        rw [Std.ExtTreeMap.getElem?_alter] at hcell
        split at hcell
        · next hplace =>
          obtain rfl := Std.LawfulEqOrd.compare_eq_iff_eq.1 hplace
          exact ⟨hc cell hcell, x, hp⟩
        · exact h.samples place cell hcell
      · exact h.samples place cell hcell

/-- A cell of a legible attribute is a value. -/
theorem Legible.cell? (h : a.Legible) {cell : Cell} (hcell : a.cell? time = some cell) :
    ∃ v, cell = .value v := by
  cases time with
  | default => exact h.fixed cell hcell
  | sample x =>
    obtain ⟨place, -, hplace⟩ := Option.bind_eq_some_iff.1 hcell
    exact (h.samples place cell hplace).1

end Attribute

namespace Store

variable {s s' : Store} {id : EntityId} {name : String} {time : TimeCode} {v : Value}
  {call : StoreCall} {calls : List StoreCall}

/-- What a call makes of an attribute that can be read can be read. -/
theorem Makes.legible {before : Option Attribute} {after : Attribute}
    (h : Makes call id name before after) (hbefore : ∀ a, before = some a → a.Legible) :
    after.Legible := by
  cases h with
  | kept => exact hbefore _ rfl
  | created type => exact .ofType type
  | authored a value time =>
    refine (hbefore a rfl).setCell time ?_
    rintro cell ⟨⟩
    exact ⟨value, rfl⟩
  | cleared a time => exact (hbefore a rfl).setCell time fun _ hcell => nomatch hcell
  | locked a on =>
    obtain ⟨hdeclared, hfixed, hsamples⟩ := hbefore a rfl
    exact ⟨hdeclared, hfixed, hsamples⟩
  | ordered before tokens =>
    have hlegible : (before.getD (.ofType .tokenArray)).Legible := by
      cases before with
      | none => exact .ofType .tokenArray
      | some a => exact hbefore a rfl
    refine ⟨hlegible.declared, ?_, hlegible.samples⟩
    rintro cell ⟨⟩
    exact ⟨_, rfl⟩

/-- Every attribute can be read. -/
def Legible (s : Store) : Prop := ∀ id name a, s.find? id name = some a → a.Legible

/-- A run of calls keeps the store legible. -/
theorem Legible.run (h : s.Legible) (calls : List StoreCall) : (s.run calls).Legible :=
  forall_run (P := fun _ _ a => a.Legible)
    (fun _ _ _ _ _ _ hmakes hbefore => hmakes.legible hbefore) h

/-- In every store that calls lead to, attributes can be read. -/
theorem legible_run (calls : List StoreCall) : (empty.run calls).Legible :=
  Legible.run (fun id name _ ha => nomatch (find?_empty id name).symm.trans ha) calls

/-! ## What one call leaves at a time -/

/-- What is stored exactly at a time. -/
def cell? (s : Store) (id : EntityId) (name : String) (time : TimeCode) : Option Cell :=
  (s.find? id name).bind (·.cell? time)

/-- A cell of a legible store is a value. -/
theorem Legible.cell? (h : s.Legible) {cell : Cell} (hcell : s.cell? id name time = some cell) :
    ∃ v, cell = .value v := by
  obtain ⟨a, ha, hcell⟩ := Option.bind_eq_some_iff.1 hcell
  exact (h id name a ha).cell? hcell

/-- Attributes that can be read hold what is authored in them, and reading it does not fail. -/
theorem Legible.authored?_eq (h : s.Legible) (id : EntityId) (name : String) (time : TimeCode) :
    ∃ value?, s.authored? id name time = .ok value? ∧ s.cell? id name time = value?.map .value := by
  cases hcell : s.cell? id name time with
  | none => exact ⟨none, congrArg Cell.read? hcell, rfl⟩
  | some cell =>
    obtain ⟨v, rfl⟩ := h.cell? hcell
    exact ⟨some v, congrArg Cell.read? hcell, rfl⟩

/-- What is authored shows at the times that are the same, and at no other times, nor at those of
another attribute. -/
theorem cell?_alter_setCell {id' : EntityId} {name' : String} {a : Attribute}
    (ha : s.find? id' name' = some a) (c : Option Cell) (t : TimeCode) :
    (s.alter id' name' (·.map (·.setCell c t))).cell? id name time =
      if (id' = id ∧ name' = name) ∧ t.Same time then c else s.cell? id name time := by
  rw [cell?, cell?, find?_alter]
  by_cases hat : id' = id ∧ name' = name
  · obtain ⟨rfl, rfl⟩ := hat
    simp [ha, has_of_find? ha, Attribute.cell?_setCell]
  · rw [if_neg fun hall => hat ⟨hall.1, hall.2.1⟩, if_neg fun hall => hat hall.1]

/-- Creating an attribute changes no cell. -/
theorem cell?_createAttribute {id' : EntityId} {name' : String} {type : ValueType}
    (h : s.createAttribute id' name' type = .ok (some s')) :
    s'.cell? id name time = s.cell? id name time := by
  rcases of_createAttribute h with rfl | ⟨hnone, rfl⟩
  · rfl
  rw [cell?, cell?, declare, find?_alter]
  split
  · next hat =>
    obtain ⟨rfl, rfl, -⟩ := hat
    rw [hnone]
    cases time with
    | default => rfl
    | sample x => cases hx : SampleTime.of? x <;> simp [Attribute.ofType, Attribute.cell?, hx]
  · rfl

/-- Setting a value changes the cell at its time only. -/
theorem cell?_setValue {id' : EntityId} {name' : String} {value : Value} {t : TimeCode}
    (h : s.setValue id' name' value t = .ok (some s')) : s'.cell? id name time =
      if (id' = id ∧ name' = name) ∧ t.Same time then some (.value value)
      else s.cell? id name time := by
  obtain ⟨-, a, type, ha, -, -, -, rfl⟩ := setValue_eq_ok_iff.1 h
  exact cell?_alter_setCell ha _ t

/-- Clearing a value empties the cell at its time only. -/
theorem cell?_clearValue {id' : EntityId} {name' : String} {t : TimeCode}
    (h : s.clearValue id' name' t = .ok (some s')) : s'.cell? id name time =
      if (id' = id ∧ name' = name) ∧ t.Same time then none else s.cell? id name time := by
  obtain ⟨-, a, type, ha, -, rfl⟩ := clearValue_eq_ok_iff.1 h
  exact cell?_alter_setCell ha none t

/-- Where clearing is not answered there is nothing to clear. -/
theorem cell?_of_clearValue_ne (hopen : s.readOnly = false) (hlegible : s.Legible) {t : TimeCode}
    (h : ∀ s', s.clearValue id name t ≠ .ok (some s')) : s.cell? id name time = none := by
  cases ha : s.find? id name with
  | none => rw [cell?, ha, Option.bind_none]
  | some a =>
    obtain ⟨type, htype⟩ := (hlegible id name a ha).declared
    exact absurd (clearValue_eq_ok_iff.2 ⟨hopen, a, type, ha, htype, rfl⟩) (h _)

/-- An attribute that is removed takes along what it holds at all times. -/
theorem cell?_removeAttribute {id' : EntityId} {name' : String}
    (h : s.removeAttribute id' name' = some s') : s'.cell? id name time =
      if id' = id ∧ name' = name then none else s.cell? id name time := by
  obtain ⟨-, ⟨a, ha⟩, rfl⟩ := removeAttribute_eq_some_iff.1 h
  rw [cell?, cell?, find?_alter]
  by_cases hat : id' = id ∧ name' = name
  · rw [if_pos ⟨hat.1, hat.2, has_of_find? ha⟩, if_pos hat, Option.bind_none]
  · rw [if_neg hat, if_neg fun hall => hat ⟨hall.1, hall.2.1⟩]

end Store

/-- The call authors the value at the time: it is answered. -/
def StoreCall.Authors (s : Store) (id : EntityId) (name : String) (time : TimeCode) (v : Value) :
    StoreCall → Prop
  | setValue id' name' value t => (id' = id ∧ name' = name) ∧ t.Same time ∧ value = v ∧
      ∃ s', s.setValue id' name' value t = .ok (some s')
  | _ => False

/-- The call takes back what is authored at the time: it clears the time, or it is answered and
removes the attribute. -/
def StoreCall.Withdraws (s : Store) (id : EntityId) (name : String) (time : TimeCode) :
    StoreCall → Prop
  | clearValue id' name' t => (id' = id ∧ name' = name) ∧ t.Same time
  | removeAttribute id' name' =>
    (id' = id ∧ name' = name) ∧ ∃ s', s.removeAttribute id' name' = some s'
  | _ => False

/-- The call authors something at the time, or takes it back. -/
def StoreCall.Touches (s : Store) (id : EntityId) (name : String) (time : TimeCode)
    (call : StoreCall) : Prop :=
  (∃ v, call.Authors s id name time v) ∨ call.Withdraws s id name time

/-- The calls that create and remove attributes, and author and clear values. -/
def StoreCall.IsAuthoring : StoreCall → Bool
  | createAttribute .. | removeAttribute .. | setValue .. | clearValue .. => true
  | _ => false

namespace Store

variable {s s' : Store} {id : EntityId} {name : String} {time : TimeCode} {v : Value}
  {call : StoreCall} {calls : List StoreCall}

/-- After a call a value stands at a time if the call authored it there, or if it stood there and
the call left it. -/
theorem cell?_perform (hopen : s.readOnly = false) (hlegible : s.Legible)
    (hcall : call.IsAuthoring) :
    (s.perform call).cell? id name time = some (.value v) ↔
      call.Authors s id name time v ∨
        s.cell? id name time = some (.value v) ∧ ¬call.Touches s id name time := by
  by_cases hanswer : ∃ s', call.answer s = .ok (some s')
  · obtain ⟨s', hanswer⟩ := hanswer
    rw [perform_of_ok hanswer]
    cases call with
    | createAttribute id' name' type =>
      rw [cell?_createAttribute hanswer]
      simp [StoreCall.Touches, StoreCall.Authors, StoreCall.Withdraws]
    | removeAttribute id' name' =>
      have hremove : s.removeAttribute id' name' = some s' := Except.ok.inj hanswer
      rw [cell?_removeAttribute hremove]
      by_cases hat : id' = id ∧ name' = name
      · obtain ⟨rfl, rfl⟩ := hat
        simp [StoreCall.Touches, StoreCall.Authors, StoreCall.Withdraws, hremove]
      · simp [StoreCall.Touches, StoreCall.Authors, StoreCall.Withdraws, hat]
    | setValue id' name' value t =>
      have hset : s.setValue id' name' value t = .ok (some s') := hanswer
      rw [cell?_setValue hset]
      by_cases hat : (id' = id ∧ name' = name) ∧ t.Same time
      · obtain ⟨⟨rfl, rfl⟩, hsame⟩ := hat
        simp [StoreCall.Touches, StoreCall.Authors, StoreCall.Withdraws, hsame, hset]
      · rw [if_neg hat]
        simp only [StoreCall.Touches, StoreCall.Authors, StoreCall.Withdraws, ← and_assoc, hat]
        simp
    | clearValue id' name' t =>
      rw [cell?_clearValue hanswer]
      by_cases hat : (id' = id ∧ name' = name) ∧ t.Same time <;>
        simp [StoreCall.Touches, StoreCall.Authors, StoreCall.Withdraws, hat]
    | _ => cases hcall
  · -- A call that answers no changes nothing. Only a clearing may still touch the time, as it
    -- withdraws whether or not it succeeds; on an open and legible store it found nothing there.
    have hanswer : ∀ s', call.answer s ≠ .ok (some s') := fun s' hs' => hanswer ⟨s', hs'⟩
    rw [perform_of_not hanswer]
    cases call with
    | createAttribute id' name' type =>
      simp [StoreCall.Touches, StoreCall.Authors, StoreCall.Withdraws]
    | removeAttribute id' name' =>
      have hremove : ∀ s', s.removeAttribute id' name' ≠ some s' :=
        fun s' hs' => hanswer s' (congrArg Except.ok hs')
      simp [StoreCall.Touches, StoreCall.Authors, StoreCall.Withdraws, hremove]
    | setValue id' name' value t =>
      have hset : ∀ s', s.setValue id' name' value t ≠ .ok (some s') := hanswer
      simp [StoreCall.Touches, StoreCall.Authors, StoreCall.Withdraws, hset]
    | clearValue id' name' t =>
      by_cases hat : (id' = id ∧ name' = name) ∧ t.Same time
      · obtain ⟨⟨rfl, rfl⟩, hsame⟩ := hat
        rw [cell?_of_clearValue_ne hopen hlegible hanswer]
        simp [StoreCall.Authors]
      · simp [StoreCall.Touches, StoreCall.Authors, StoreCall.Withdraws, hat]
    | _ => cases hcall

/-! ## What a run leaves at a time -/

/-- No call of the run authors anything at the time, or takes it back. -/
def Untouched (s : Store) (calls : List StoreCall) (id : EntityId) (name : String)
    (time : TimeCode) : Prop :=
  ∀ before call after, calls = before ++ call :: after → ¬call.Touches (s.run before) id name time

/-- A call of the run authors the value at the time, and no later one authors anything there or
takes it back. -/
def LastAuthored (s : Store) (calls : List StoreCall) (id : EntityId) (name : String)
    (time : TimeCode) (v : Value) : Prop :=
  ∃ before call after, calls = before ++ call :: after ∧
    call.Authors (s.run before) id name time v ∧
      (s.run (before ++ [call])).Untouched after id name time

theorem untouched_nil : s.Untouched [] id name time := by
  intro before call after h
  simp at h

/-- A time is untouched by a run exactly if its first call and the rest of it leave it alone. -/
theorem untouched_cons : s.Untouched (call :: calls) id name time ↔
    ¬call.Touches s id name time ∧ (s.perform call).Untouched calls id name time := by
  constructor
  · refine fun h => ⟨h [] call calls rfl, fun before later after hcalls => ?_⟩
    exact h (call :: before) later after (congrArg _ hcalls)
  · rintro ⟨hcall, hothers⟩ before later after h
    cases before with
    | nil =>
      obtain ⟨rfl, -⟩ := List.cons.inj h
      exact hcall
    | cons first before =>
      obtain ⟨rfl, hcalls⟩ := List.cons.inj h
      exact hothers before later after hcalls

theorem not_lastAuthored_nil : ¬s.LastAuthored [] id name time v := by
  rintro ⟨before, call, after, h, -⟩
  simp at h

/-- A value is last authored by the rest of a run, or by its first call if the rest leaves it. -/
theorem lastAuthored_cons : s.LastAuthored (call :: calls) id name time v ↔
    (s.perform call).LastAuthored calls id name time v ∨
      call.Authors s id name time v ∧ (s.perform call).Untouched calls id name time := by
  constructor
  · rintro ⟨before, last, after, h, hauthors, hsince⟩
    cases before with
    | nil =>
      obtain ⟨rfl, rfl⟩ := List.cons.inj h
      exact .inr ⟨hauthors, hsince⟩
    | cons first before =>
      obtain ⟨rfl, hcalls⟩ := List.cons.inj h
      exact .inl ⟨before, last, after, hcalls, hauthors, hsince⟩
  · rintro (⟨before, last, after, hcalls, hauthors, hsince⟩ | ⟨hauthors, hsince⟩)
    · exact ⟨call :: before, last, after, congrArg _ hcalls, hauthors, hsince⟩
    · exact ⟨[], call, calls, rfl, hauthors, hsince⟩

/-- Authoring leaves a store open for writing. -/
theorem readOnly_perform (hcall : call.IsAuthoring) : (s.perform call).readOnly = s.readOnly := by
  by_cases hanswer : ∃ s', call.answer s = .ok (some s')
  · obtain ⟨s', hanswer⟩ := hanswer
    rw [perform_of_ok hanswer]
    cases call with
    | createAttribute id' name' type =>
      rcases of_createAttribute hanswer with rfl | ⟨-, rfl⟩ <;> rfl
    | removeAttribute id' name' =>
      obtain ⟨-, -, rfl⟩ := removeAttribute_eq_some_iff.1 (Except.ok.inj hanswer)
      rfl
    | setValue id' name' value t =>
      obtain ⟨-, a, type, -, -, -, -, rfl⟩ := setValue_eq_ok_iff.1 hanswer
      rfl
    | clearValue id' name' t =>
      obtain ⟨-, a, type, -, -, rfl⟩ := clearValue_eq_ok_iff.1 hanswer
      rfl
    | _ => cases hcall
  · rw [perform_of_not fun s' hs' => hanswer ⟨s', hs'⟩]

/-- After a run a value stands at a time if it was authored there last, or if it stood there and the
run left it. -/
theorem cell?_run (hopen : s.readOnly = false) (hlegible : s.Legible)
    (hcalls : ∀ call ∈ calls, call.IsAuthoring) :
    (s.run calls).cell? id name time = some (.value v) ↔
      s.LastAuthored calls id name time v ∨
        s.cell? id name time = some (.value v) ∧ s.Untouched calls id name time := by
  induction calls generalizing s with
  | nil => simp [not_lastAuthored_nil, untouched_nil, run]
  | cons call calls ih =>
    obtain ⟨hcall, hothers⟩ := List.forall_mem_cons.1 hcalls
    have hopen' : (s.perform call).readOnly = false := (readOnly_perform hcall).trans hopen
    have hrest := ih hopen' (hlegible.run [call]) hothers
    rw [cell?_perform hopen hlegible hcall] at hrest
    rw [lastAuthored_cons, untouched_cons, ← and_assoc, or_assoc, ← or_and_right]
    exact hrest

/-! ## What a reader sees -/

/-- Something is authored at a sample time. -/
def Sampled (s : Store) (id : EntityId) (name : String) (x : Binary64) : Prop :=
  ∃ v, s.authored? id name (.sample x) = .ok (some v)

/-- The sample at `x` is held at `t`: it is the latest that is not after `t`, or it is the earliest
and all samples are after `t` or do not compare with it. -/
def HoldsFrom (s : Store) (id : EntityId) (name : String) (t x : Binary64) : Prop :=
  s.Sampled id name x ∧
    (x.numericLe t ∧ (∀ y, s.Sampled id name y → y.numericLe t → y.numericLe x) ∨
      ∀ y, s.Sampled id name y → ¬y.numericLe t ∧ x.numericLe y)

/-- Where a store is legible, the times sampled are those that have a cell. -/
theorem Legible.sampled_iff (h : s.Legible) {x : Binary64} : s.Sampled id name x ↔
    ∃ a place cell, s.find? id name = some a ∧ SampleTime.of? x = some place ∧
      a.samples[place]? = some cell := by
  obtain ⟨value?, hvalue, hcell⟩ := h.authored?_eq id name (.sample x)
  rw [Sampled, hvalue]
  constructor
  · rintro ⟨v, ⟨⟩⟩
    obtain ⟨a, ha, hcell⟩ := Option.bind_eq_some_iff.1 hcell
    obtain ⟨place, hplace, hcell⟩ := Option.bind_eq_some_iff.1 hcell
    exact ⟨a, place, _, ha, hplace, hcell⟩
  · rintro ⟨a, place, cell, ha, hplace, hsome⟩
    rw [Store.cell?, ha, Option.bind_some, Attribute.cell?, hplace, Option.bind_some,
      hsome] at hcell
    obtain ⟨v, rfl, -⟩ := Option.map_eq_some_iff.1 hcell.symm
    exact ⟨v, rfl⟩

/-- Samples of an attribute that can be read compare as their places do. -/
theorem Legible.place_of_sampled (h : s.Legible) {a : Attribute} (ha : s.find? id name = some a)
    {x : Binary64} (hx : s.Sampled id name x) :
    ∃ place cell, SampleTime.of? x = some place ∧ a.samples[place]? = some cell := by
  obtain ⟨a', place, cell, ha', hplace, hcell⟩ := h.sampled_iff.1 hx
  obtain rfl : a = a' := Option.some.inj (ha.symm.trans ha')
  exact ⟨place, cell, hplace, hcell⟩

/-- A reader at a sample time sees the sample that is held there, and the value that does not vary
only where nothing is sampled. -/
theorem Legible.value?_sample (h : s.Legible) (id : EntityId) (name : String) (t : Binary64) :
    (∃ x, s.HoldsFrom id name t x ∧
      s.value? id name (.sample t) = s.authored? id name (.sample x)) ∨
    (∀ x, ¬s.Sampled id name x) ∧
      s.value? id name (.sample t) = s.authored? id name .default := by
  cases ha : s.find? id name with
  | none =>
    refine .inr ⟨fun x hx => ?_, by rw [value?, authored?, ha]; rfl⟩
    obtain ⟨a, -, -, ha', -⟩ := h.sampled_iff.1 hx
    rw [ha] at ha'
    cases ha'
  | some a =>
    have hvalue : s.value? id name (.sample t) = Cell.read? ((a.held? t).or a.fixed) := by
      rw [value?, ha]
      rfl
    -- What is held is told in places; a place of a legible store is that of a time.
    rcases a.held?_cases t with ⟨hnone, hheld⟩ | ⟨place, cell, hcell, hheld, hwhich⟩
    · refine .inr ⟨fun x hx => ?_, ?_⟩
      · obtain ⟨place, cell, -, hcell⟩ := h.place_of_sampled ha hx
        rw [hnone] at hcell
        cases hcell
      · rw [hvalue, hheld, authored?, ha]
        rfl
    · obtain ⟨-, x, hx⟩ := (h id name a ha).samples place cell hcell
      refine .inl ⟨x, ⟨h.sampled_iff.2 ⟨a, place, cell, ha, hx, hcell⟩, ?_⟩, ?_⟩
      · rcases hwhich with ⟨p, hp, hle, hlatest⟩ | hearliest
        · refine .inl ⟨Binary64.numericLe_iff.2 ⟨place, p, hx, hp, hle⟩, fun y hy hyle => ?_⟩
          obtain ⟨place', cell', hplace', hcell'⟩ := h.place_of_sampled ha hy
          obtain ⟨q, p', hq, hp', hle'⟩ := Binary64.numericLe_iff.1 hyle
          obtain rfl : place' = q := Option.some.inj (hplace'.symm.trans hq)
          obtain rfl : p = p' := Option.some.inj (hp.symm.trans hp')
          exact Binary64.numericLe_iff.2 ⟨_, _, hplace', hx, hlatest _ cell' hcell' hle'⟩
        · refine .inr fun y hy => ?_
          obtain ⟨place', cell', hplace', hcell'⟩ := h.place_of_sampled ha hy
          obtain ⟨hafter, hle⟩ := hearliest place' cell' hcell'
          refine ⟨fun hyle => ?_, Binary64.numericLe_iff.2 ⟨_, _, hx, hplace', hle⟩⟩
          obtain ⟨q, p, hq, hp, hle'⟩ := Binary64.numericLe_iff.1 hyle
          obtain rfl : place' = q := Option.some.inj (hplace'.symm.trans hq)
          exact hafter p hp hle'
      · rw [hvalue, hheld, authored?, ha, Option.bind_some, Attribute.cell?, hx, Option.bind_some,
          hcell]
        rfl

/-- What was authored last at a time stands there; what stood there before, if no call touched the
time; and otherwise nothing. -/
theorem authored?_run (hopen : s.readOnly = false) (hlegible : s.Legible)
    (hcalls : ∀ call ∈ calls, call.IsAuthoring) (id : EntityId) (name : String)
    (time : TimeCode) :
    (∀ v, s.LastAuthored calls id name time v →
      (s.run calls).authored? id name time = .ok (some v)) ∧
    (s.Untouched calls id name time →
      (s.run calls).authored? id name time = s.authored? id name time) ∧
    (¬s.Untouched calls id name time → (∀ v, ¬s.LastAuthored calls id name time v) →
      (s.run calls).authored? id name time = .ok none) := by
  obtain ⟨value?, hvalue, hcell⟩ := (hlegible.run calls).authored?_eq id name time
  obtain ⟨before?, hbefore, hcell'⟩ := hlegible.authored?_eq id name time
  have hrun (v : Value) : value? = some v ↔
      s.LastAuthored calls id name time v ∨ before? = some v ∧ s.Untouched calls id name time := by
    have hafter : (s.run calls).cell? id name time = some (.value v) ↔ _ :=
      cell?_run hopen hlegible hcalls
    simpa [hcell, hcell'] using hafter
  rw [hvalue, hbefore]
  refine ⟨fun v hlast => ?_, fun huntouched => ?_, fun htouched hnone => ?_⟩
  · rw [(hrun v).2 (.inl hlast)]
  · have hnot : ∀ v, ¬s.LastAuthored calls id name time v := by
      rintro v ⟨before, call, after, hsplit, hauthors, -⟩
      exact huntouched before call after hsplit (.inl ⟨v, hauthors⟩)
    congr 1
    ext v
    simpa [hnot, huntouched] using hrun v
  · have hnothing : ∀ v, value? ≠ some v := fun v hv =>
      ((hrun v).1 hv).elim (hnone v) fun hstood => htouched hstood.2
    rw [Option.eq_none_iff_forall_ne_some.2 hnothing]

/-- On a store that calls led to and that is open for writing, a run that authors leaves at each
time what it authored there last; what stood there before, if no call touched the time; and
otherwise nothing. At a sample time a reader sees what is held there. -/
theorem authored_last_and_held (history : List StoreCall)
    (hopen : (empty.run history).readOnly = false) (hcalls : ∀ call ∈ calls, call.IsAuthoring)
    (id : EntityId) (name : String) :
    let s := empty.run history
    let after := s.run calls
    (∀ time,
      (∀ v, s.LastAuthored calls id name time v →
        after.authored? id name time = .ok (some v)) ∧
      (s.Untouched calls id name time →
        after.authored? id name time = s.authored? id name time) ∧
      (¬s.Untouched calls id name time → (∀ v, ¬s.LastAuthored calls id name time v) →
        after.authored? id name time = .ok none)) ∧
    ∀ t : Binary64,
      (∃ x, after.HoldsFrom id name t x ∧
        after.value? id name (.sample t) = after.authored? id name (.sample x)) ∨
      (∀ x, ¬after.Sampled id name x) ∧
        after.value? id name (.sample t) = after.authored? id name .default := by
  intro s after
  have hlegible : s.Legible := legible_run history
  exact ⟨authored?_run hopen hlegible hcalls id name, (hlegible.run calls).value?_sample id name⟩

/-- A value at the negative zero is found at zero, and is the first that a reader sees. -/
theorem authored_last_and_held_at_zero :
    let calls : List StoreCall := [.createAttribute default "width" .float,
      .setValue default "width" (.float ⟨2⟩) (.sample .one),
      .setValue default "width" (.float ⟨1⟩) (.sample ⟨0x8000000000000000⟩)]
    let after := (empty.run [.create default "/a"]).run calls
    after.authored? default "width" (.sample .zero) = .ok (some (.float ⟨1⟩)) ∧
      ∃ x, after.HoldsFrom default "width" .zero x ∧
        after.value? default "width" (.sample .zero) =
          after.authored? default "width" (.sample x) := by
  intro calls after
  have hcalls : ∀ call ∈ calls, call.IsAuthoring := by decide
  obtain ⟨hexact, hheld⟩ :=
    authored_last_and_held [.create default "/a"] (by decide +kernel) hcalls default "width"
  have hlast : (empty.run [.create default "/a"]).LastAuthored calls default "width"
      (.sample .zero) (.float ⟨1⟩) := by
    refine ⟨calls.take 2, _, [], rfl, ⟨⟨rfl, rfl⟩, by decide +kernel, rfl, ?_⟩, untouched_nil⟩
    exact ⟨_, rfl⟩
  have hzero := (hexact (.sample .zero)).1 _ hlast
  refine ⟨hzero, (hheld .zero).resolve_right fun hnone => hnone.1 .zero ⟨_, hzero⟩⟩

end Store

end TransformStack
