import Switchboard.Proofs.Exchange.Setup

/-!
# Registrations that overlap

A handler is initialised while nobody is held up, so any number of registrations can be between the
first look at a name and the second, also of the same name. `SharedRegistry` is a registry with all
registrations that were ever begun, and a run lets them take their steps in any order.

* **`Advanced`**: what a step of a registration does. Handlers come in at the last step only, and
  only under a name that is free then.
* **`Standing`**: where a registration stands, with the reason for it: what its initialisation has
  yielded, and who has the name that it did not get.
* **`Orderly`**: every registration has its standing, and every handler found under a name belongs
  to the one registration that returned well. Each step keeps it (`Orderly.concat`).
* **`overlapping_registrations_safe`**: what follows for every run.
-/

namespace Switchboard

/-! ## One step of a registration -/

/-- What a step of a registration does to it and to the handlers. -/
inductive Advanced (linked : Bool) (handlers : Registry) :
    Registration → Registration → Registry → Prop where
  | taken {p : Proposal} (htaken : p.name ∈ handlers) :
      Advanced linked handlers (.proposed p) (.finished p.name (.error (.nameTaken p.name)))
        handlers
  | admitted {p : Proposal} (hfree : p.name ∉ handlers) :
      Advanced linked handlers (.proposed p) (.admitted p) handlers
  | refused {p : Proposal} (hinit : p.candidate.init? linked p.database p.args = none) :
      Advanced linked handlers (.admitted p) (.finished p.name (.error (.initFailed p.name)))
        handlers
  | initialised {p : Proposal} {handler : Handler}
      (hinit : p.candidate.init? linked p.database p.args = some handler) :
      Advanced linked handlers (.admitted p) (.initialised p.name handler) handlers
  | overtaken {name : String} {handler : Handler} (htaken : name ∈ handlers) :
      Advanced linked handlers (.initialised name handler)
        (.finished name (.error (.nameTaken name))) handlers
  | added {name : String} {handler : Handler} (hfree : name ∉ handlers) :
      Advanced linked handlers (.initialised name handler) (.finished name (.ok ()))
        (handlers.insert name handler)
  | ended {name : String} {result : Except SetupFault Unit} :
      Advanced linked handlers (.finished name result) (.finished name result) handlers

theorem advanced_step (linked : Bool) (handlers : Registry) (r : Registration) :
    Advanced linked handlers r (r.step linked handlers).1 (r.step linked handlers).2 := by
  cases r with
  | proposed p =>
    cases htaken : handlers.contains p.name with
    | true =>
      simp only [Registration.step, htaken, ↓reduceIte]
      exact .taken htaken
    | false =>
      simp only [Registration.step, htaken, Bool.false_eq_true, ↓reduceIte]
      exact .admitted (not_mem_of_contains htaken)
  | admitted p =>
    cases hinit : p.candidate.init? linked p.database p.args with
    | none =>
      simp only [Registration.step, hinit]
      exact .refused hinit
    | some handler =>
      simp only [Registration.step, hinit]
      exact .initialised hinit
  | initialised name handler =>
    cases htaken : handlers.contains name with
    | true =>
      simp only [Registration.step, htaken, ↓reduceIte]
      exact .overtaken htaken
    | false =>
      simp only [Registration.step, htaken, Bool.false_eq_true, ↓reduceIte]
      exact .added (not_mem_of_contains htaken)
  | finished name result => exact .ended

/-! ## Many registrations -/

/-- A registry with the registrations that were begun, in the order in which they were. -/
structure SharedRegistry where
  handlers : Registry
  registrations : List Registration

/-- What happens to a shared registry. -/
inductive RegistrationEvent where
  | propose (p : Proposal)
  /-- The registration at this place takes a step. -/
  | advance (place : Nat) (linked : Bool)
  | lookUp (name : String)

namespace SharedRegistry

variable {x y : SharedRegistry} {events : List RegistrationEvent} {e : RegistrationEvent}
  {i j : Nat} {p : Proposal} {r : Registration} {name : String} {handler : Handler}
  {result : Except SetupFault Unit}

/-- One step. A place without a registration has no step to take, and a lookup changes nothing. -/
def step (x : SharedRegistry) : RegistrationEvent → SharedRegistry
  | .propose p => { x with registrations := x.registrations ++ [.proposed p] }
  | .advance place linked =>
    match x.registrations[place]? with
    | none => x
    | some r =>
      let (r, handlers) := r.step linked x.handlers
      ⟨handlers, x.registrations.set place r⟩
  | .lookUp _ => x

/-- A run, with no handlers at first. -/
def run (events : List RegistrationEvent) : SharedRegistry :=
  events.foldl step ⟨∅, []⟩

theorem run_append (events later : List RegistrationEvent) :
    run (events ++ later) = later.foldl step (run events) :=
  List.foldl_append

theorem run_concat (events : List RegistrationEvent) (e : RegistrationEvent) :
    run (events ++ [e]) = (run events).step e :=
  run_append events [e]

/-- What was proposed; the registration of each proposal is at the same place. -/
def proposals (events : List RegistrationEvent) : List Proposal :=
  events.filterMap fun
    | .propose p => some p
    | _ => none

theorem proposals_append (events later : List RegistrationEvent) :
    proposals (events ++ later) = proposals events ++ proposals later :=
  List.filterMap_append

/-- What an event does to a shared registry. -/
inductive Moved (x : SharedRegistry) : RegistrationEvent → SharedRegistry → Prop where
  | proposed (p : Proposal) :
      Moved x (.propose p) ⟨x.handlers, x.registrations ++ [.proposed p]⟩
  | advanced {place : Nat} {linked : Bool} {r r' : Registration} {handlers : Registry}
      (hat : x.registrations[place]? = some r)
      (hadvanced : Advanced linked x.handlers r r' handlers) :
      Moved x (.advance place linked) ⟨handlers, x.registrations.set place r'⟩
  | absent {place : Nat} {linked : Bool} : Moved x (.advance place linked) x
  | lookedUp (name : String) : Moved x (.lookUp name) x

theorem moved_step (x : SharedRegistry) (e : RegistrationEvent) : Moved x e (x.step e) := by
  cases e with
  | propose p => exact .proposed p
  | advance place linked =>
    cases hat : x.registrations[place]? with
    | none =>
      simp only [step, hat]
      exact .absent
    | some r =>
      simp only [step, hat]
      exact .advanced hat (advanced_step linked x.handlers r)
  | lookUp name => exact .lookedUp name

theorem Moved.length_eq (h : Moved x e y) :
    y.registrations.length = x.registrations.length + (proposals [e]).length := by
  cases h with
  | proposed p => exact List.length_append
  | advanced hat hadvanced => exact List.length_set
  | absent => rfl
  | lookedUp name => rfl

theorem getElem?_set_of_at {l : List Registration} (hat : l[i]? = some r) (r' : Registration) :
    (l.set i r')[i]? = some r' :=
  List.getElem?_set_self (List.getElem?_eq_some_iff.1 hat).1

/-! ## What stays -/

theorem Moved.finished_stays (h : Moved x e y)
    (hat : x.registrations[i]? = some (.finished name result)) :
    y.registrations[i]? = some (.finished name result) := by
  cases h with
  | proposed p => exact (List.getElem?_append_left (List.getElem?_eq_some_iff.1 hat).1).trans hat
  | @advanced place linked r r' handlers hplace hadvanced =>
    by_cases heq : place = i
    · subst heq
      cases hplace.symm.trans hat
      cases hadvanced
      exact getElem?_set_of_at hat _
    · exact (List.getElem?_set_ne heq).trans hat
  | absent => exact hat
  | lookedUp name => exact hat

theorem Moved.handler_stays (h : Moved x e y) (hbound : x.handlers[name]? = some handler) :
    y.handlers[name]? = some handler := by
  cases h with
  | proposed p => exact hbound
  | advanced hplace hadvanced =>
    cases hadvanced with
    | added hfree => exact getElem?_insert_of_free hfree _ hbound
    | taken | admitted | refused | initialised | overtaken | ended => exact hbound
  | absent => exact hbound
  | lookedUp name => exact hbound

/-- The registration at a place has returned. -/
def Returned (events : List RegistrationEvent) (i : Nat) (name : String)
    (result : Except SetupFault Unit) : Prop :=
  (run events).registrations[i]? = some (.finished name result)

theorem Returned.append (h : Returned events i name result) (later : List RegistrationEvent) :
    Returned (events ++ later) i name result := by
  induction later using List.reverseRecOn with
  | nil => rwa [List.append_nil]
  | append_singleton later e ih =>
    rw [Returned, ← List.append_assoc, run_concat]
    exact (moved_step _ e).finished_stays ih

theorem handler_append (h : (run events).handlers[name]? = some handler)
    (later : List RegistrationEvent) : (run (events ++ later)).handlers[name]? = some handler := by
  induction later using List.reverseRecOn with
  | nil => rwa [List.append_nil]
  | append_singleton later e ih =>
    rw [← List.append_assoc, run_concat]
    exact (moved_step _ e).handler_stays ih

/-! ## Where a registration stands -/

/-- In the course of the events the candidate of a proposal was initialised, with this outcome. -/
def Initialised (events : List RegistrationEvent) (i : Nat) (p : Proposal)
    (outcome : Option Handler) : Prop :=
  ∃ before linked after, events = before ++ .advance i linked :: after ∧
    (run before).registrations[i]? = some (.admitted p) ∧
    p.candidate.init? linked p.database p.args = outcome

theorem Initialised.append {outcome : Option Handler} (h : Initialised events i p outcome)
    (later : List RegistrationEvent) : Initialised (events ++ later) i p outcome := by
  obtain ⟨before, linked, after, rfl, hadmitted, hinit⟩ := h
  exact ⟨before, linked, after ++ later, by simp, hadmitted, hinit⟩

theorem initialised_concat {linked : Bool}
    (hat : (run events).registrations[i]? = some (.admitted p)) :
    Initialised (events ++ [.advance i linked]) i p
      (p.candidate.init? linked p.database p.args) :=
  ⟨events, linked, [], rfl, hat, rfl⟩

/-- How far the registration of a proposal has come, and for what reason. -/
inductive Standing (events : List RegistrationEvent) (i : Nat) (p : Proposal) :
    Registration → Prop where
  | proposed : Standing events i p (.proposed p)
  | admitted : Standing events i p (.admitted p)
  | initialised {handler : Handler} (hinit : Initialised events i p (some handler)) :
      Standing events i p (.initialised p.name handler)
  | added {handler : Handler} (hinit : Initialised events i p (some handler))
      (hfound : (run events).handlers[p.name]? = some handler) :
      Standing events i p (.finished p.name (.ok ()))
  | refused (hinit : Initialised events i p none) :
      Standing events i p (.finished p.name (.error (.initFailed p.name)))
  | taken {j : Nat} (hother : Returned events j p.name (.ok ())) :
      Standing events i p (.finished p.name (.error (.nameTaken p.name)))

theorem Standing.append (h : Standing events i p r) (later : List RegistrationEvent) :
    Standing (events ++ later) i p r := by
  cases h with
  | proposed => exact .proposed
  | admitted => exact .admitted
  | initialised hinit => exact .initialised (hinit.append later)
  | added hinit hfound => exact .added (hinit.append later) (handler_append hfound later)
  | refused hinit => exact .refused (hinit.append later)
  | taken hother => exact .taken (hother.append later)

/-- Every registration has its standing, and every handler the one registration that put it in
place. -/
structure Orderly (events : List RegistrationEvent) : Prop where
  length_eq : (run events).registrations.length = (proposals events).length
  standing : ∀ i r, (run events).registrations[i]? = some r →
    ∃ p, (proposals events)[i]? = some p ∧ Standing events i p r
  source : ∀ (name : String) handler, (run events).handlers[name]? = some handler →
    ∃ i, Returned events i name (.ok ())
  unique : ∀ i j name, Returned events i name (.ok ()) → Returned events j name (.ok ()) → i = j

theorem orderly_nil : Orderly [] where
  length_eq := rfl
  standing i r hat := by
    rw [show (run []).registrations = [] from rfl, List.getElem?_nil] at hat
    cases hat
  source name handler hbound := by
    rw [show (run []).handlers = ∅ from rfl, Std.ExtTreeMap.getElem?_empty] at hbound
    cases hbound
  unique i j name h _ := by
    rw [Returned, show (run []).registrations = [] from rfl, List.getElem?_nil] at h
    cases h

/-- A name that is taken was taken by a registration that returned well. -/
theorem Orderly.exists_returned (h : Orderly events) (htaken : name ∈ (run events).handlers) :
    ∃ j, Returned events j name (.ok ()) := by
  rw [Std.ExtTreeMap.mem_iff_isSome_getElem?] at htaken
  obtain ⟨handler, hbound⟩ := Option.isSome_iff_exists.1 htaken
  exact h.source name handler hbound

theorem Orderly.exists_handler (h : Orderly events) (hreturned : Returned events i name (.ok ())) :
    ∃ p handler, (proposals events)[i]? = some p ∧ p.name = name ∧
      Initialised events i p (some handler) ∧ (run events).handlers[name]? = some handler := by
  obtain ⟨p, hp, hstanding⟩ := h.standing i _ hreturned
  cases hstanding with
  | @added handler hinit hfound => exact ⟨p, handler, hp, rfl, hinit, hfound⟩

/-- **The standing after a step of its own.** -/
theorem Standing.advance {linked : Bool} {r' : Registration} {handlers : Registry}
    (h : Standing events i p r) (horderly : Orderly events)
    (hat : (run events).registrations[i]? = some r)
    (hadvanced : Advanced linked (run events).handlers r r' handlers)
    (hafter : (run (events ++ [.advance i linked])).handlers = handlers) :
    Standing (events ++ [.advance i linked]) i p r' := by
  cases hadvanced with
  | taken htaken =>
    cases h
    obtain ⟨j, hother⟩ := horderly.exists_returned htaken
    exact .taken (hother.append _)
  | admitted hfree =>
    cases h
    exact .admitted
  | refused hinit =>
    cases h
    exact .refused (hinit ▸ initialised_concat hat)
  | initialised hinit =>
    cases h
    exact .initialised (hinit ▸ initialised_concat hat)
  | overtaken htaken =>
    cases h
    obtain ⟨j, hother⟩ := horderly.exists_returned htaken
    exact .taken (hother.append _)
  | added hfree =>
    cases h with
    | initialised hinit =>
      refine .added (hinit.append _) ?_
      rw [hafter]
      exact Std.ExtTreeMap.getElem?_insert_self
  | ended => exact h.append _

/-- **The standing after one more event.** -/
theorem Orderly.standing_concat (h : Orderly events) (e : RegistrationEvent)
    (hat : (run (events ++ [e])).registrations[i]? = some r) :
    ∃ p, (proposals (events ++ [e]))[i]? = some p ∧ Standing (events ++ [e]) i p r := by
  have hkept {i : Nat} {p : Proposal} (hp : (proposals events)[i]? = some p) :
      (proposals (events ++ [e]))[i]? = some p := by
    rw [proposals_append, List.getElem?_append_left (List.getElem?_eq_some_iff.1 hp).1]
    exact hp
  have hold {i : Nat} {r : Registration} (hat : (run events).registrations[i]? = some r) :
      ∃ p, (proposals (events ++ [e]))[i]? = some p ∧ Standing (events ++ [e]) i p r := by
    obtain ⟨p, hp, hstanding⟩ := h.standing i r hat
    exact ⟨p, hkept hp, hstanding.append [e]⟩
  have hmoved := moved_step (run events) e
  rw [← run_concat] at hmoved
  generalize hy : run (events ++ [e]) = y at hmoved hat
  cases hmoved with
  | proposed p =>
    by_cases hlt : i < (run events).registrations.length
    · rw [List.getElem?_append_left hlt] at hat
      exact hold hat
    · -- the new registration is at the place of its proposal
      rw [List.getElem?_append_right (Nat.le_of_not_lt hlt), List.getElem?_singleton] at hat
      split at hat
      · next hi =>
        cases hat
        refine ⟨p, ?_, .proposed⟩
        rw [proposals_append, List.getElem?_append_right (by rw [← h.length_eq]; omega),
          ← h.length_eq, hi]
        rfl
      · cases hat
  | @advanced place linked r' r'' handlers hplace hadvanced =>
    by_cases heq : place = i
    · subst heq
      rw [getElem?_set_of_at hplace] at hat
      cases hat
      obtain ⟨p, hp, hstanding⟩ := h.standing place r' hplace
      exact ⟨p, hkept hp, hstanding.advance h hplace hadvanced (by rw [hy])⟩
    · rw [List.getElem?_set_ne heq] at hat
      exact hold hat
  | absent => exact hold hat
  | lookedUp name => exact hold hat

/-- A registration puts its handler in place. -/
structure Adds (x y : SharedRegistry) (i : Nat) (name : String) (handler : Handler) : Prop where
  initialised : x.registrations[i]? = some (.initialised name handler)
  free : name ∉ x.handlers
  handlers_eq : y.handlers = x.handlers.insert name handler
  finished : y.registrations[i]? = some (.finished name (.ok ()))

/-- **Handlers change by a step of their own registration**, and in no other way. -/
theorem Moved.handlers_or_adds (h : Moved x e y) :
    y.handlers = x.handlers ∨
      ∃ i linked name handler, e = .advance i linked ∧ Adds x y i name handler := by
  cases h with
  | proposed p => exact Or.inl rfl
  | @advanced place linked r r' handlers hplace hadvanced =>
    cases hadvanced with
    | added hfree =>
      exact Or.inr ⟨place, linked, _, _, rfl, hplace, hfree, rfl, getElem?_set_of_at hplace _⟩
    | taken | admitted | refused | initialised | overtaken | ended => exact Or.inl rfl
  | absent => exact Or.inl rfl
  | lookedUp name => exact Or.inl rfl

/-- A registration that has returned well had done so before, or did so by putting its handler in
place. -/
theorem Moved.finished_or_adds (h : Moved x e y)
    (hat : y.registrations[i]? = some (.finished name (.ok ()))) :
    x.registrations[i]? = some (.finished name (.ok ())) ∨
      ∃ linked handler, e = .advance i linked ∧ Adds x y i name handler := by
  cases h with
  | proposed p =>
    rw [List.getElem?_append] at hat
    split at hat
    · exact Or.inl hat
    · rw [List.getElem?_singleton] at hat
      split at hat <;> cases hat
  | @advanced place linked r r' handlers hplace hadvanced =>
    by_cases heq : place = i
    · subst heq
      have hafter := hat
      rw [getElem?_set_of_at hplace] at hat
      cases hat
      cases hadvanced with
      | added hfree => exact Or.inr ⟨linked, _, rfl, hplace, hfree, rfl, hafter⟩
      | ended => exact Or.inl hplace
    · rw [List.getElem?_set_ne heq] at hat
      exact Or.inl hat
  | absent => exact Or.inl hat
  | lookedUp name => exact Or.inl hat

/-- **One step keeps the order.** -/
theorem Orderly.concat (h : Orderly events) (e : RegistrationEvent) :
    Orderly (events ++ [e]) := by
  have hmoved := moved_step (run events) e
  rw [← run_concat] at hmoved
  refine ⟨?_, fun i r => h.standing_concat e, fun name handler hbound => ?_,
    fun i j name hi hj => ?_⟩
  · rw [hmoved.length_eq, h.length_eq, proposals_append, List.length_append]
  · rcases hmoved.handlers_or_adds with hsame | ⟨i, linked, name', handler', rfl, hadds⟩
    · rw [hsame] at hbound
      obtain ⟨i, hreturned⟩ := h.source name handler hbound
      exact ⟨i, hreturned.append _⟩
    · by_cases hname : name' = name
      · subst hname
        exact ⟨i, hadds.finished⟩
      · rw [hadds.handlers_eq, Std.ExtTreeMap.getElem?_insert,
          if_neg fun h => hname (Std.LawfulEqOrd.compare_eq_iff_eq.1 h)] at hbound
        obtain ⟨j, hreturned⟩ := h.source name handler hbound
        exact ⟨j, hreturned.append _⟩
  · -- a name that one of the two has since an earlier event is not free for the other
    have hfree {i j : Nat} {handler : Handler} (hi : Returned events i name (.ok ()))
        (hadds : Adds (run events) (run (events ++ [e])) j name handler) : False := by
      obtain ⟨-, handler', -, -, -, hbound⟩ := h.exists_handler hi
      rw [Std.ExtTreeMap.getElem?_eq_none hadds.free] at hbound
      cases hbound
    rcases hmoved.finished_or_adds hi with hi' | ⟨linked, handler, rfl, hadds⟩
    · rcases hmoved.finished_or_adds hj with hj' | ⟨linked, handler, rfl, hadds⟩
      · exact h.unique i j name hi' hj'
      · exact (hfree hi' hadds).elim
    · rcases hmoved.finished_or_adds hj with hj' | ⟨linked', handler', heq, -⟩
      · exact (hfree hj' hadds).elim
      · cases heq
        rfl

theorem orderly (events : List RegistrationEvent) : Orderly events := by
  induction events using List.reverseRecOn with
  | nil => exact orderly_nil
  | append_singleton events e ih => exact ih.concat e

/-! ## A registration by itself -/

/-- A registration that nobody gets in between of; `place` is where it will be. -/
def alone (p : Proposal) (linked : Bool) (place : Nat) : List RegistrationEvent :=
  [.propose p, .advance place linked, .advance place linked, .advance place linked]

theorem step_advance_last (handlers : Registry) (l : List Registration) (r : Registration)
    (linked : Bool) :
    step ⟨handlers, l ++ [r]⟩ (.advance l.length linked) =
      ⟨(r.step linked handlers).2, l ++ [(r.step linked handlers).1]⟩ := by
  simp only [step, List.getElem?_concat_length, List.set_append_right, le_refl, Nat.sub_self,
    List.set_cons_zero]

/-- The three steps in a row are the whole registration. -/
theorem foldl_alone (p : Proposal) (linked : Bool) (x : SharedRegistry) :
    (alone p linked x.registrations.length).foldl step x =
      ⟨(x.handlers.register linked p).2,
        x.registrations ++ [.finished p.name (x.handlers.register linked p).1]⟩ := by
  have hpropose : x.step (.propose p) = ⟨x.handlers, x.registrations ++ [.proposed p]⟩ := rfl
  simp only [alone, List.foldl_cons, List.foldl_nil, hpropose, step_advance_last]
  -- both sides have taken the same three steps
  cases htaken : x.handlers.contains p.name with
  | true =>
    simp only [Registry.register, Registration.step, Registration.result?, htaken, ↓reduceIte,
      Option.getD_some]
  | false =>
    cases hinit : p.candidate.init? linked p.database p.args <;>
      simp only [Registry.register, Registration.step, Registration.result?, htaken, hinit,
        Bool.false_eq_true, ↓reduceIte, Option.getD_some]

/-- **A name that nobody has can be had.** -/
theorem returned_alone {linked : Bool} (hfree : p.name ∉ (run events).handlers)
    (hinit : p.candidate.init? linked p.database p.args = some handler) :
    Returned (events ++ alone p linked (run events).registrations.length)
        (run events).registrations.length p.name (.ok ()) ∧
      (run (events ++ alone p linked (run events).registrations.length)).handlers[p.name]? =
        some handler := by
  have hregistered := registered_register linked p (run events).handlers
  rw [Returned, run_append, foldl_alone]
  generalize (run events).handlers.register linked p = r at hregistered ⊢
  obtain ⟨result, handlers⟩ := r
  dsimp only at hregistered ⊢
  cases hregistered with
  | taken htaken => exact absurd htaken hfree
  | failed hnone =>
    rw [hinit] at hnone
    cases hnone
  | added _ hsome =>
    cases hinit.symm.trans hsome
    exact ⟨List.getElem?_concat_length, Std.ExtTreeMap.getElem?_insert_self⟩

/-! ## The theorem -/

/-- **Registrations may overlap.** Let any number of registrations take their three steps in any
order, with lookups in between. A registration that has returned does not return anything else. For
each name at most one returns well. It has then initialised its candidate, and the handler that
this yielded is found under the name; nothing else is ever found under a name, and it never changes.
A registration that returns an error has changed no handlers in any of its steps, and there are two
reasons for the error: another registration has the name, or the initialisation was refused. As long
as no registration for a name has returned well, whatever has failed before, the next one by itself
gets it. -/
theorem overlapping_registrations_safe (events : List RegistrationEvent) :
    (∀ i name result, Returned events i name result →
      ∀ later, Returned (events ++ later) i name result) ∧
    (∀ i j name, Returned events i name (.ok ()) → Returned events j name (.ok ()) → i = j) ∧
    (∀ i name, Returned events i name (.ok ()) →
      ∃ p handler, (proposals events)[i]? = some p ∧ p.name = name ∧
        Initialised events i p (some handler) ∧ (run events).handlers[name]? = some handler) ∧
    (∀ (name : String) handler, (run events).handlers[name]? = some handler →
      (∃ i, Returned events i name (.ok ())) ∧
        ∀ later, (run (events ++ later)).handlers[name]? = some handler) ∧
    (∀ i name fault, Returned events i name (.error fault) →
      (∀ before linked after, events = before ++ .advance i linked :: after →
        (run (before ++ [.advance i linked])).handlers = (run before).handlers) ∧
      (fault = .nameTaken name ∧ (∃ j, j ≠ i ∧ Returned events j name (.ok ())) ∨
        fault = .initFailed name ∧
          ∃ p, (proposals events)[i]? = some p ∧ p.name = name ∧ Initialised events i p none)) ∧
    (∀ p linked handler, (∀ i, ¬ Returned events i p.name (.ok ())) →
      p.candidate.init? linked p.database p.args = some handler →
      Returned (events ++ alone p linked (run events).registrations.length)
          (run events).registrations.length p.name (.ok ()) ∧
        (run (events ++ alone p linked (run events).registrations.length)).handlers[p.name]? =
          some handler) := by
  have h := orderly events
  refine ⟨fun i name result => Returned.append, h.unique, fun i name => h.exists_handler,
    fun name handler hbound => ⟨h.source name handler hbound, handler_append hbound⟩,
    fun i name fault hreturned => ⟨?_, ?_⟩, fun p linked handler hnone hinit => ?_⟩
  · rintro before linked after rfl
    have hmoved := moved_step (run before) (.advance i linked)
    rw [← run_concat] at hmoved
    refine hmoved.handlers_or_adds.resolve_right ?_
    rintro ⟨i', linked', name', handler, heq, hadds⟩
    cases heq
    -- it would have returned well
    have hok : Returned (before ++ [.advance i linked]) i name' (.ok ()) := hadds.finished
    have hend := hok.append after
    rw [List.append_assoc] at hend
    cases hreturned.symm.trans hend
  · obtain ⟨p, hp, hstanding⟩ := h.standing i _ hreturned
    cases hstanding with
    | refused hinit => exact Or.inr ⟨rfl, p, hp, rfl, hinit⟩
    | @taken j hother =>
      refine Or.inl ⟨rfl, j, ?_, hother⟩
      rintro rfl
      cases hreturned.symm.trans hother
  · exact returned_alone (fun htaken => (h.exists_returned htaken).elim hnone) hinit

/-! Three registrations for one name. -/

/-- All three see that the name is free. The relay has no link, the utilities are initialised first,
and the engine is in place first. -/
def overlapping : List RegistrationEvent :=
  [.propose ⟨"e", .builtin .relay, none, ""⟩, .propose ⟨"e", .builtin .misc, none, ""⟩,
    .propose ⟨"e", .engine ⟨fun _ _ => some .reply⟩, none, ""⟩,
    .advance 0 false, .advance 1 false, .advance 2 false, .advance 0 false, .lookUp "e",
    .advance 1 false, .advance 2 false, .advance 2 false, .lookUp "e", .advance 1 false]

/-- Each of the three returns as it should, and the engine stays where it is. -/
theorem overlapping_registrations_safe_of_three :
    Returned overlapping 0 "e" (.error (.initFailed "e")) ∧
    Returned overlapping 1 "e" (.error (.nameTaken "e")) ∧
    (∃ j, j ≠ 1 ∧ Returned overlapping j "e" (.ok ())) ∧
    (∀ j, Returned overlapping j "e" (.ok ()) → j = 2) ∧
    ∀ later, (run (overlapping ++ later)).handlers["e"]? = some (.engine .reply) := by
  have hrefused : Returned overlapping 0 "e" (.error (.initFailed "e")) := rfl
  have hovertaken : Returned overlapping 1 "e" (.error (.nameTaken "e")) := rfl
  have hreturned : Returned overlapping 2 "e" (.ok ()) := rfl
  have hfound : (run overlapping).handlers["e"]? = some (.engine .reply) := rfl
  obtain ⟨-, hunique, -, hhandlers, herrors, -⟩ := overlapping_registrations_safe overlapping
  refine ⟨hrefused, hovertaken, ?_, fun j hj => hunique j 2 "e" hj hreturned,
    (hhandlers "e" _ hfound).2⟩
  obtain ⟨-, hother | ⟨hfault, -⟩⟩ := herrors 1 "e" _ hovertaken
  · exact hother.2
  · cases hfault

end SharedRegistry

end Switchboard
