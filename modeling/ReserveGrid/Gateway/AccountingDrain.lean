import ReserveGrid.Gateway.DrainMachine

/-!
# Draining the accounting queues on a stop

Every item is accounted for at every step of a drain: it is still queued, or
taken and emitted, or in the hand of the drain. What a drain leaves when it
returns is read off its trace.
-/

namespace ReserveGrid.Gateway

open Support

/-! ## What the drain has in hand -/

/-- What is taken and not emitted, what is taken and not counted, what is
durable and not emitted, what is emitted and not completed, the batch that the
log refused, and the call of the log for it. -/
structure Hand where
  events : List ShareAcceptedEvent := []
  eventBatch : List ShareAcceptedEvent := []
  results : List ShareForwardResult := []
  resultBatch : List ShareForwardResult := []
  durable : List Key := []
  forwarded : List Key := []
  refused : List ShareAcceptedEvent := []
  call : Option WalOp := none

/-- What is in hand at each place of the drain. -/
inductive DrainPc.Holds : DrainPc → Hand → Prop where
  | head : Holds .head {}
  | tryEvents : Holds .tryEvents {}
  | takeEvents (batch : List ShareAcceptedEvent) :
      Holds (.takeEvents batch) { events := batch, eventBatch := batch }
  | emitRejected (batch todo : List ShareAcceptedEvent)
      (htodo : ∀ e ∈ todo, e.isAccepted = false) :
      Holds (.emitRejected batch todo)
        { events := todo ++ acceptedOf batch, eventBatch := batch }
  | markPending (batch : List ShareAcceptedEvent) (now : UInt64) :
      Holds (.markPending batch
          (.markPending now ((acceptedOf batch).map ShareAcceptedEvent.key)))
        { events := acceptedOf batch
          eventBatch := batch
          call := some (.markPending now
            ((acceptedOf batch).map ShareAcceptedEvent.key)) }
  | emitAccepted (batch todo : List ShareAcceptedEvent)
      (htodo : ∀ e ∈ todo, e.isAccepted = true) :
      Holds (.emitAccepted batch todo)
        { events := todo
          eventBatch := batch
          durable := todo.map ShareAcceptedEvent.key }
  | tryResults : Holds .tryResults {}
  | takeResults (batch : List ShareForwardResult) :
      Holds (.takeResults batch) { results := batch, resultBatch := batch }
  | emitForwarded (sent todo : List ShareForwardResult) :
      Holds (.emitForwarded sent todo)
        { results := todo
          resultBatch := sent ++ todo
          forwarded := sent.map ShareForwardResult.key }
  | markCompleted (batch : List ShareForwardResult) (now : UInt64) (arrived : ℕ)
      (env : CompactionEnv) (keys : List Key) :
      Holds (.markCompleted batch (.markCompleted now arrived env keys))
        { resultBatch := batch }
  | returned : Holds (.returned (.ok ())) {}
  | timedOut (events results : ℕ) :
      Holds (.returned (.error (.timedOut events results))) {}
  | refused (batch : List ShareAcceptedEvent) (now : UInt64) :
      Holds (.returned (.error .markPending))
        { events := acceptedOf batch
          refused := batch
          call := some (.markPending now
            ((acceptedOf batch).map ShareAcceptedEvent.key)) }
  | failed : Holds (.returned (.error .markCompleted)) {}

/-- What an effect takes, emits, makes durable and completes changes hands. -/
structure Hand.Passes (x : DrainEffect) (hand hand' : Hand) : Prop where
  events : (hand.events ++ x.eventTaken?.toList).Perm
    (x.event1?.toList ++ hand'.events)
  eventBatch : hand.eventBatch ++ x.eventTaken?.toList = hand'.eventBatch
  results : hand.results ++ x.resultTaken?.toList =
    x.event2?.toList ++ hand'.results
  resultBatch : hand.resultBatch ++ x.resultTaken?.toList = hand'.resultBatch
  durable : hand.durable ++ x.pendingDurable =
    (acceptedOf x.event1?.toList).map ShareAcceptedEvent.key ++ hand'.durable
  forwarded : hand.forwarded ++ x.event2?.toList.map ShareForwardResult.key =
    x.completedWritten ++ hand'.forwarded
  refused : hand'.refused = []
  call : ∀ op ∈ hand'.call, hand.call = some op ∨ x = .walCalled op

/-- The effects after which the same is in hand. -/
def DrainEffect.still : DrainEffect → Bool
  | .eventArrived _ => true
  | .resultArrived _ => true
  | .eventsEmpty => true
  | .resultsEmpty => true
  | _ => false

theorem Hand.passes_of_still {x : DrainEffect} (hx : x.still = true) {hand : Hand}
    (hrefused : hand.refused = []) : Hand.Passes x hand hand := by
  have hnone : x.eventTaken? = none ∧ x.resultTaken? = none ∧ x.event1? = none ∧
      x.event2? = none ∧ x.pendingDurable = [] ∧ x.completedWritten = [] := by
    cases x with
    | eventArrived e => exact ⟨rfl, rfl, rfl, rfl, rfl, rfl⟩
    | resultArrived r => exact ⟨rfl, rfl, rfl, rfl, rfl, rfl⟩
    | eventsEmpty => exact ⟨rfl, rfl, rfl, rfl, rfl, rfl⟩
    | resultsEmpty => exact ⟨rfl, rfl, rfl, rfl, rfl, rfl⟩
    | _ => cases hx
  obtain ⟨htaken, htaken', hevent1, hevent2, hdurable, hwritten⟩ := hnone
  constructor
  · rw [htaken, hevent1]
    exact List.Perm.of_eq (List.append_nil _)
  · rw [htaken]
    exact List.append_nil _
  · rw [htaken', hevent2]
    exact List.append_nil _
  · rw [htaken']
    exact List.append_nil _
  · rw [hdurable, hevent1]
    exact List.append_nil _
  · rw [hevent2, hwritten]
    exact List.append_nil _
  · exact hrefused
  · exact fun op hop => .inl hop

namespace Hand.Passes

variable {batch todo : List ShareAcceptedEvent} {e : ShareAcceptedEvent}
variable {sent todo' : List ShareForwardResult} {r : ShareForwardResult}
variable {now : UInt64} {arrived : ℕ} {env : CompactionEnv}

theorem eventTaken : Passes (.eventTaken e) { events := batch, eventBatch := batch }
    { events := batch ++ [e], eventBatch := batch ++ [e] } where
  events := List.Perm.refl _
  eventBatch := rfl
  results := rfl
  resultBatch := rfl
  durable := rfl
  forwarded := rfl
  refused := rfl
  call _ hop := by cases hop

theorem resultTaken : Passes (.resultTaken r) { results := sent, resultBatch := sent }
    { results := sent ++ [r], resultBatch := sent ++ [r] } where
  events := List.Perm.refl _
  eventBatch := rfl
  results := rfl
  resultBatch := rfl
  durable := rfl
  forwarded := rfl
  refused := rfl
  call _ hop := by cases hop

theorem rejected (he : e.isAccepted = false) : Passes (.event1 e)
    { events := e :: todo ++ acceptedOf batch, eventBatch := batch }
    { events := todo ++ acceptedOf batch, eventBatch := batch } where
  events := List.Perm.of_eq (List.append_nil _)
  eventBatch := List.append_nil _
  results := rfl
  resultBatch := rfl
  durable := by
    have hnone : acceptedOf [e] = [] := by simp [acceptedOf, he]
    change [] = (acceptedOf [e]).map _ ++ []
    rw [hnone]
    rfl
  forwarded := rfl
  refused := rfl
  call _ hop := by cases hop

theorem accepted (he : e.isAccepted = true) : Passes (.event1 e)
    { events := e :: todo
      eventBatch := batch
      durable := (e :: todo).map ShareAcceptedEvent.key }
    { events := todo
      eventBatch := batch
      durable := todo.map ShareAcceptedEvent.key } where
  events := List.Perm.of_eq (List.append_nil _)
  eventBatch := List.append_nil _
  results := rfl
  resultBatch := rfl
  durable := by
    have hall : acceptedOf [e] = [e] := by simp [acceptedOf, he]
    change (e :: todo).map _ ++ [] = (acceptedOf [e]).map _ ++ todo.map _
    rw [hall, List.append_nil]
    rfl
  forwarded := rfl
  refused := rfl
  call _ hop := by cases hop

theorem forwardedOne : Passes (.event2 now r)
    { results := r :: todo'
      resultBatch := sent ++ r :: todo'
      forwarded := sent.map ShareForwardResult.key }
    { results := todo'
      resultBatch := sent ++ [r] ++ todo'
      forwarded := (sent ++ [r]).map ShareForwardResult.key } where
  events := List.Perm.refl _
  eventBatch := rfl
  results := List.append_nil _
  resultBatch := by
    change sent ++ r :: todo' ++ [] = sent ++ [r] ++ todo'
    rw [List.append_nil, List.append_assoc]
    rfl
  durable := rfl
  forwarded := by
    rw [List.map_append]
    rfl
  refused := rfl
  call _ hop := by cases hop

/-- The call for the accepted events of a batch. -/
theorem pendingCalled : Passes
    (.walCalled (.markPending now
      ((acceptedOf batch).map ShareAcceptedEvent.key)))
    { events := acceptedOf batch, eventBatch := batch }
    { events := acceptedOf batch
      eventBatch := batch
      call := some (.markPending now
        ((acceptedOf batch).map ShareAcceptedEvent.key)) } where
  events := List.Perm.of_eq (List.append_nil _)
  eventBatch := List.append_nil _
  results := rfl
  resultBatch := rfl
  durable := rfl
  forwarded := rfl
  refused := rfl
  call _ hop := by
    cases hop
    exact .inr rfl

theorem pendingDone : Passes
    (.walDone (.markPending now
      ((acceptedOf batch).map ShareAcceptedEvent.key)))
    { events := acceptedOf batch
      eventBatch := batch
      call := some (.markPending now
        ((acceptedOf batch).map ShareAcceptedEvent.key)) }
    { events := acceptedOf batch
      eventBatch := batch
      durable := (acceptedOf batch).map ShareAcceptedEvent.key } where
  events := List.Perm.of_eq (List.append_nil _)
  eventBatch := List.append_nil _
  results := rfl
  resultBatch := rfl
  durable := rfl
  forwarded := rfl
  refused := rfl
  call _ hop := by cases hop

/-- The call for the results of a batch, all of them emitted. -/
theorem completedCalled : Passes
    (.walCalled (.markCompleted now arrived env
      (sent.map ShareForwardResult.key)))
    { resultBatch := sent ++ [], forwarded := sent.map ShareForwardResult.key }
    { resultBatch := sent } where
  events := List.Perm.refl _
  eventBatch := rfl
  results := rfl
  resultBatch := by
    rw [List.append_nil]
    exact List.append_nil _
  durable := rfl
  forwarded := rfl
  refused := rfl
  call _ hop := by cases hop

theorem completedDone {keys : List Key} : Passes
    (.walDone (.markCompleted now arrived env keys)) { resultBatch := sent }
    { resultBatch := sent } where
  events := List.Perm.refl _
  eventBatch := rfl
  results := rfl
  resultBatch := List.append_nil _
  durable := rfl
  forwarded := rfl
  refused := rfl
  call _ hop := by cases hop

end Hand.Passes

/-- What an effect does to the state beside the place of the drain. -/
structure DrainState.Notes (x : DrainEffect) (s t : DrainState) : Prop where
  trace : t.trace = s.trace ++ [x]
  drainedEvents : t.drainedEvents = s.drainedEvents
  drainedResults : t.drainedResults = s.drainedResults
  events : s.events ++ x.eventArrived?.toList = x.eventTaken?.toList ++ t.events
  results : s.results ++ x.resultArrived?.toList =
    x.resultTaken?.toList ++ t.results

/-- Emitting, calling the log and finding a queue empty leave the queues. -/
def DrainEffect.leavesQueues : DrainEffect → Bool
  | .eventArrived _ => false
  | .resultArrived _ => false
  | .eventTaken _ => false
  | .resultTaken _ => false
  | _ => true

theorem DrainState.notes_goto (s : DrainState) {x : DrainEffect}
    (hx : x.leavesQueues = true) (pc : DrainPc) :
    DrainState.Notes x s ((s.note x).goto pc) := by
  refine ⟨rfl, rfl, rfl, ?_, ?_⟩
  · cases x with
    | eventArrived e => cases hx
    | eventTaken e => cases hx
    | _ => exact List.append_nil _
  · cases x with
    | resultArrived r => cases hx
    | resultTaken r => cases hx
    | _ => exact List.append_nil _

/-- Every item is accounted for: it is still queued, or taken and emitted, or
in hand. -/
structure Tally (events : List ShareAcceptedEvent)
    (results : List ShareForwardResult) (walOn : Bool) (s : DrainState)
    (hand : Hand) : Prop where
  eventQueue : events ++ arrivedEvents s.trace = takenEvents s.trace ++ s.events
  resultQueue :
    results ++ arrivedResults s.trace = takenResults s.trace ++ s.results
  events : (takenEvents s.trace).Perm (emittedEvents s.trace ++ hand.events)
  results : takenResults s.trace = emittedResults s.trace ++ hand.results
  eventCount : ∃ counted, takenEvents s.trace = counted ++ hand.eventBatch ∧
    s.drainedEvents = counted.length
  resultCount : ∃ counted, takenResults s.trace = counted ++ hand.resultBatch ∧
    s.drainedResults = counted.length
  pending : walOn = true →
    durableKeys s.trace = acceptedKeys s.trace ++ hand.durable
  completed : walOn = true →
    forwardedKeys s.trace = writtenKeys s.trace ++ hand.forwarded
  refused : hand.refused <:+ takenEvents s.trace
  call : ∀ op ∈ hand.call, .walCalled op ∈ s.trace
  inOrder : walOn = true → InOrder s.trace

namespace Tally

variable {events : List ShareAcceptedEvent} {results : List ShareForwardResult}
variable {walOn : Bool} {s t : DrainState} {hand hand' : Hand}

theorem initial (events : List ShareAcceptedEvent)
    (results : List ShareForwardResult) (walOn : Bool) :
    Tally events results walOn (.initial events results) {} where
  eventQueue := List.append_nil _
  resultQueue := List.append_nil _
  events := List.Perm.refl _
  results := rfl
  eventCount := ⟨[], rfl, rfl⟩
  resultCount := ⟨[], rfl, rfl⟩
  pending _ := rfl
  completed _ := rfl
  refused := List.nil_suffix
  call _ h := by cases h
  inOrder _ := by
    intro earlier h
    rw [List.prefix_nil.mp h]
    exact ⟨List.nil_prefix, List.nil_prefix⟩

/-- The tally does not look at the place of the drain. -/
theorem same (h : Tally events results walOn s hand)
    (hevents : t.events = s.events) (hresults : t.results = s.results)
    (hdrained : t.drainedEvents = s.drainedEvents)
    (hdrained' : t.drainedResults = s.drainedResults)
    (htrace : t.trace = s.trace) :
    Tally events results walOn t hand := by
  obtain ⟨_, _, _, _, _, _, _⟩ := t
  cases hevents
  cases hresults
  cases hdrained
  cases hdrained'
  cases htrace
  exact ⟨h.eventQueue, h.resultQueue, h.events, h.results, h.eventCount,
    h.resultCount, h.pending, h.completed, h.refused, h.call, h.inOrder⟩

/-- The order is kept by an effect that leaves something durable or emitted to
spare. -/
theorem inOrder_append {trace : List DrainEffect} (h : InOrder trace)
    {x : DrainEffect} {due undone : List Key}
    (hpending : durableKeys (trace ++ [x]) = acceptedKeys (trace ++ [x]) ++ due)
    (hcompleted : forwardedKeys (trace ++ [x]) =
      writtenKeys (trace ++ [x]) ++ undone) :
    InOrder (trace ++ [x]) := by
  intro earlier hearlier
  rcases List.prefix_concat_iff.mp hearlier with rfl | hearlier
  · exact ⟨⟨due, hpending.symm⟩, ⟨undone, hcompleted.symm⟩⟩
  · exact h earlier hearlier

/-- The tally goes on with what an effect has moved. -/
theorem advance (h : Tally events results walOn s hand) {x : DrainEffect}
    (hnotes : s.Notes x t) (hpasses : Hand.Passes x hand hand') :
    Tally events results walOn t hand' := by
  have hpending : walOn = true → durableKeys (s.trace ++ [x]) =
      acceptedKeys (s.trace ++ [x]) ++ hand'.durable := by
    intro hon
    rw [durableKeys_append, acceptedKeys_append, h.pending hon, List.append_assoc,
      hpasses.durable, List.append_assoc]
  have hcompleted : walOn = true → forwardedKeys (s.trace ++ [x]) =
      writtenKeys (s.trace ++ [x]) ++ hand'.forwarded := by
    intro hon
    rw [forwardedKeys_append, writtenKeys_append, h.completed hon,
      List.append_assoc, hpasses.forwarded, List.append_assoc]
  obtain ⟨counted, hcounted, hlength⟩ := h.eventCount
  obtain ⟨counted', hcounted', hlength'⟩ := h.resultCount
  have htrace := hnotes.trace
  refine
    { eventQueue := ?_
      resultQueue := ?_
      events := ?_
      results := ?_
      eventCount := ⟨counted, ?_, hnotes.drainedEvents.trans hlength⟩
      resultCount := ⟨counted', ?_, hnotes.drainedResults.trans hlength'⟩
      pending := fun hon => htrace ▸ hpending hon
      completed := fun hon => htrace ▸ hcompleted hon
      refused := hpasses.refused ▸ List.nil_suffix
      call := ?_
      inOrder := fun hon => htrace ▸
        inOrder_append (h.inOrder hon) (hpending hon) (hcompleted hon) }
  · rw [htrace, arrivedEvents_append, takenEvents_append, ← List.append_assoc,
      h.eventQueue, List.append_assoc, hnotes.events, List.append_assoc]
  · rw [htrace, arrivedResults_append, takenResults_append, ← List.append_assoc,
      h.resultQueue, List.append_assoc, hnotes.results, List.append_assoc]
  · rw [htrace, takenEvents_append, emittedEvents_append, List.append_assoc]
    refine (h.events.append_right _).trans ?_
    rw [List.append_assoc]
    exact hpasses.events.append_left _
  · rw [htrace, takenResults_append, emittedResults_append, h.results,
      List.append_assoc, hpasses.results, List.append_assoc]
  · rw [htrace, takenEvents_append, hcounted, List.append_assoc,
      hpasses.eventBatch]
  · rw [htrace, takenResults_append, hcounted', List.append_assoc,
      hpasses.resultBatch]
  · intro op hop
    rw [htrace, List.mem_append, List.mem_singleton]
    rcases hpasses.call op hop with hbefore | rfl
    · exact .inl (h.call op hbefore)
    · exact .inr rfl

/-- The batch in hand is counted. -/
theorem countEvents (h : Tally events results walOn s hand) :
    Tally events results walOn (s.countEvents hand.eventBatch)
      { hand with eventBatch := [] } := by
  obtain ⟨counted, hcounted, hlength⟩ := h.eventCount
  refine
    { h with
      eventCount := ⟨counted ++ hand.eventBatch, ?_, ?_⟩ }
  · rw [List.append_nil]
    exact hcounted
  · rw [List.length_append, ← hlength]
    rfl

theorem countResults (h : Tally events results walOn s hand) :
    Tally events results walOn (s.countResults hand.resultBatch)
      { hand with resultBatch := [] } := by
  obtain ⟨counted, hcounted, hlength⟩ := h.resultCount
  refine
    { h with
      resultCount := ⟨counted ++ hand.resultBatch, ?_, ?_⟩ }
  · rw [List.append_nil]
    exact hcounted
  · rw [List.length_append, ← hlength]
    rfl

end Tally

/-! ## One step -/

section

variable {events : List ShareAcceptedEvent} {results : List ShareForwardResult}
variable {walOn : Bool} {s t : DrainState}

/-- Every item is accounted for at the place where the drain stands. -/
def AllAccounted (events : List ShareAcceptedEvent)
    (results : List ShareForwardResult) (walOn : Bool) (s : DrainState) : Prop :=
  ∃ hand, s.pc.Holds hand ∧ Tally events results walOn s hand

theorem DrainPc.Holds.refused_eq {pc : DrainPc} {hand : Hand} (h : pc.Holds hand)
    (hruns : ∀ outcome, pc ≠ .returned outcome) :
    hand.refused = [] := by
  cases h with
  | refused batch => exact absurd rfl (hruns _)
  | _ => rfl

theorem AllAccounted.eventArrives (h : AllAccounted events results walOn s)
    {e : ShareAcceptedEvent} (hstep : s.step walOn (.eventArrives e) = some t) :
    AllAccounted events results walOn t := by
  obtain ⟨hand, hholds, htally⟩ := h
  dsimp only [DrainState.step] at hstep
  split at hstep
  · cases hstep
  · rename_i hruns
    cases hstep
    have hnotes : s.Notes (.eventArrived e)
        { s.note (.eventArrived e) with events := s.events ++ [e] } :=
      ⟨rfl, rfl, rfl, rfl, List.append_nil _⟩
    exact ⟨hand, hholds, htally.advance hnotes
      (Hand.passes_of_still rfl (hholds.refused_eq hruns))⟩

theorem AllAccounted.resultArrives (h : AllAccounted events results walOn s)
    {r : ShareForwardResult} (hstep : s.step walOn (.resultArrives r) = some t) :
    AllAccounted events results walOn t := by
  obtain ⟨hand, hholds, htally⟩ := h
  dsimp only [DrainState.step] at hstep
  split at hstep
  · cases hstep
  · rename_i hruns
    cases hstep
    have hnotes : s.Notes (.resultArrived r)
        { s.note (.resultArrived r) with results := s.results ++ [r] } :=
      ⟨rfl, rfl, rfl, List.append_nil _, rfl⟩
    exact ⟨hand, hholds, htally.advance hnotes
      (Hand.passes_of_still rfl (hholds.refused_eq hruns))⟩

theorem AllAccounted.clock (h : AllAccounted events results walOn s) {passed : Bool}
    (hstep : s.step walOn (.clock passed) = some t) :
    AllAccounted events results walOn t := by
  obtain ⟨hand, hholds, htally⟩ := h
  obtain ⟨pc, _, _, _, _, _, _⟩ := s
  cases hholds with
  | head =>
      cases passed with
      | true =>
          cases hstep
          exact ⟨_, .timedOut _ _, htally.same rfl rfl rfl rfl rfl⟩
      | false =>
          cases hstep
          exact ⟨_, .tryEvents, htally.same rfl rfl rfl rfl rfl⟩
  | _ => cases hstep

theorem rejectedOf_isAccepted (batch : List ShareAcceptedEvent) :
    ∀ e ∈ rejectedOf batch, e.isAccepted = false := by
  intro e he
  simpa using (List.mem_filter.mp he).2

theorem acceptedOf_isAccepted (batch : List ShareAcceptedEvent) :
    ∀ e ∈ acceptedOf batch, e.isAccepted = true :=
  fun _ he => (List.mem_filter.mp he).2

/-- A batch is its rejected events and its accepted ones. -/
theorem rejectedOf_append_acceptedOf (batch : List ShareAcceptedEvent) :
    batch.Perm (rejectedOf batch ++ acceptedOf batch) := by
  refine (List.filter_append_perm ShareAcceptedEvent.isAccepted batch).symm.trans ?_
  exact List.perm_append_comm

/-- A batch of events is complete. -/
theorem Tally.startRejected {batch : List ShareAcceptedEvent}
    (h : Tally events results walOn s { events := batch, eventBatch := batch }) :
    AllAccounted events results walOn
      (s.goto (.emitRejected batch (rejectedOf batch))) := by
  refine ⟨_, .emitRejected batch _ (rejectedOf_isAccepted batch), ?_⟩
  exact
    { h with
      events := h.events.trans
        ((rejectedOf_append_acceptedOf batch).append_left _) }

/-- A batch of results is complete. -/
theorem Tally.startForwarded {batch : List ShareForwardResult}
    (h : Tally events results walOn s { results := batch, resultBatch := batch }) :
    AllAccounted events results walOn (s.goto (.emitForwarded [] batch)) :=
  ⟨_, .emitForwarded [] batch, h.same rfl rfl rfl rfl rfl⟩

/-- An event is taken into the batch. -/
theorem Tally.takeEvent (batch : List ShareAcceptedEvent)
    {es : List ShareAcceptedEvent} {e : ShareAcceptedEvent} {pc : DrainPc}
    (h : Tally events results walOn s { events := batch, eventBatch := batch })
    (hqueue : s.events = e :: es) :
    Tally events results walOn
      { (s.note (.eventTaken e)).goto pc with events := es }
      { events := batch ++ [e], eventBatch := batch ++ [e] } := by
  refine h.advance ⟨rfl, rfl, rfl, ?_, List.append_nil _⟩ Hand.Passes.eventTaken
  rw [hqueue]
  exact List.append_nil _

/-- A result is taken into the batch. -/
theorem Tally.takeResult (batch : List ShareForwardResult)
    {rs : List ShareForwardResult} {r : ShareForwardResult} {pc : DrainPc}
    (h : Tally events results walOn s { results := batch, resultBatch := batch })
    (hqueue : s.results = r :: rs) :
    Tally events results walOn
      { (s.note (.resultTaken r)).goto pc with results := rs }
      { results := batch ++ [r], resultBatch := batch ++ [r] } := by
  refine h.advance ⟨rfl, rfl, rfl, List.append_nil _, ?_⟩ Hand.Passes.resultTaken
  rw [hqueue]
  exact List.append_nil _

theorem AllAccounted.tryRecv (h : AllAccounted events results walOn s)
    (hstep : s.step walOn .tryRecv = some t) : AllAccounted events results walOn t := by
  obtain ⟨hand, hholds, htally⟩ := h
  dsimp only [DrainState.step] at hstep
  generalize hpc : s.pc = pc at hholds hstep
  cases hholds with
  | tryEvents =>
      dsimp only at hstep
      split at hstep
      · cases hstep
        exact ⟨_, .tryResults, htally.advance (s.notes_goto rfl .tryResults)
          (Hand.passes_of_still rfl rfl)⟩
      · rename_i e es hqueue
        cases hstep
        exact ⟨_, .takeEvents [e], Tally.takeEvent [] htally hqueue⟩
  | takeEvents batch =>
      dsimp only at hstep
      split at hstep
      · split at hstep
        · cases hstep
          exact htally.startRejected
        · rename_i e es hqueue
          cases hstep
          exact ⟨_, .takeEvents (batch ++ [e]), Tally.takeEvent batch htally hqueue⟩
      · cases hstep
  | tryResults =>
      dsimp only at hstep
      split at hstep
      · cases hstep
        have hnext : Tally events results walOn ((s.note .resultsEmpty).goto
            (if s.moved then .head else .returned (.ok ()))) {} :=
          htally.advance (s.notes_goto rfl _) (Hand.passes_of_still rfl rfl)
        cases hmoved : s.moved with
        | true =>
            rw [hmoved] at hnext
            exact ⟨_, .head, hnext⟩
        | false =>
            rw [hmoved] at hnext
            exact ⟨_, .returned, hnext⟩
      · rename_i r rs hqueue
        cases hstep
        exact ⟨_, .takeResults [r], Tally.takeResult [] htally hqueue⟩
  | takeResults batch =>
      dsimp only at hstep
      split at hstep
      · split at hstep
        · cases hstep
          exact htally.startForwarded
        · rename_i r rs hqueue
          cases hstep
          exact ⟨_, .takeResults (batch ++ [r]), Tally.takeResult batch htally hqueue⟩
      · cases hstep
  | _ => cases hstep

theorem AllAccounted.emit (h : AllAccounted events results walOn s) {now : UInt64}
    (hstep : s.step walOn (.emit now) = some t) :
    AllAccounted events results walOn t := by
  obtain ⟨hand, hholds, htally⟩ := h
  dsimp only [DrainState.step] at hstep
  generalize s.pc = pc at hholds hstep
  cases hholds with
  | emitRejected batch todo htodo =>
      cases todo with
      | nil => cases hstep
      | cons e todo =>
          cases hstep
          refine ⟨_, .emitRejected batch todo
            fun e he => htodo e (List.mem_cons_of_mem _ he), ?_⟩
          exact htally.advance (s.notes_goto rfl _)
            (.rejected (htodo e List.mem_cons_self))
  | emitAccepted batch todo htodo =>
      cases todo with
      | nil => cases hstep
      | cons e todo =>
          cases hstep
          refine ⟨_, .emitAccepted batch todo
            fun e he => htodo e (List.mem_cons_of_mem _ he), ?_⟩
          exact htally.advance (s.notes_goto rfl _)
            (.accepted (htodo e List.mem_cons_self))
  | emitForwarded sent todo =>
      cases todo with
      | nil => cases hstep
      | cons r todo =>
          cases hstep
          exact ⟨_, .emitForwarded (sent ++ [r]) todo,
            htally.advance (s.notes_goto rfl _) .forwardedOne⟩
  | _ => cases hstep

theorem AllAccounted.proceed (h : AllAccounted events results walOn s)
    (hstep : s.step walOn .proceed = some t) : AllAccounted events results walOn t := by
  obtain ⟨hand, hholds, htally⟩ := h
  dsimp only [DrainState.step] at hstep
  generalize s.pc = pc at hholds hstep
  cases hholds with
  | takeEvents batch =>
      dsimp only at hstep
      split at hstep
      · cases hstep
      · cases hstep
        exact htally.startRejected
  | takeResults batch =>
      dsimp only at hstep
      split at hstep
      · cases hstep
      · cases hstep
        exact htally.startForwarded
  | emitRejected batch todo htodo =>
      cases todo with
      | cons e todo => cases hstep
      | nil =>
          dsimp only at hstep
          split at hstep
          · cases hstep
          · rename_i hnothing
            cases hstep
            refine ⟨_, .emitAccepted batch _ (acceptedOf_isAccepted batch), ?_⟩
            -- With a log, there is no accepted event to wait for it.
            exact
              { htally with
                pending := fun hon => by
                  have hnone : acceptedOf batch = [] := by
                    by_contra hsome
                    exact hnothing ⟨hon, hsome⟩
                  rw [hnone]
                  exact htally.pending hon }
  | emitAccepted batch todo htodo =>
      cases todo with
      | cons e todo => cases hstep
      | nil =>
          cases hstep
          exact ⟨_, .tryResults, htally.countEvents.same rfl rfl rfl rfl rfl⟩
  | emitForwarded sent todo =>
      cases todo with
      | cons r todo => cases hstep
      | nil =>
          dsimp only at hstep
          split at hstep
          · cases hstep
          · rename_i hoff
            cases hstep
            refine ⟨_, .head, ?_⟩
            have hcounted := htally.countResults
            rw [List.append_nil] at hcounted
            exact
              { hcounted with
                pending := fun hon => absurd hon hoff
                completed := fun hon => absurd hon hoff
                inOrder := fun hon => absurd hon hoff }
  | _ => cases hstep

theorem AllAccounted.walCall (h : AllAccounted events results walOn s) {now : UInt64}
    {arrived : ℕ} {env : CompactionEnv}
    (hstep : s.step walOn (.walCall now arrived env) = some t) :
    AllAccounted events results walOn t := by
  obtain ⟨hand, hholds, htally⟩ := h
  dsimp only [DrainState.step] at hstep
  generalize s.pc = pc at hholds hstep
  cases hholds with
  | emitRejected batch todo htodo =>
      cases todo with
      | cons e todo => cases hstep
      | nil =>
          dsimp only at hstep
          split at hstep
          · cases hstep
            exact ⟨_, .markPending batch now,
              htally.advance (s.notes_goto rfl _) .pendingCalled⟩
          · cases hstep
  | emitForwarded sent todo =>
      cases todo with
      | cons r todo => cases hstep
      | nil =>
          dsimp only at hstep
          split at hstep
          · cases hstep
            exact ⟨_, .markCompleted sent now arrived env _,
              htally.advance (s.notes_goto rfl _) .completedCalled⟩
          · cases hstep
  | _ => cases hstep

theorem AllAccounted.walReturn (h : AllAccounted events results walOn s) {ok : Bool}
    (hstep : s.step walOn (.walReturn ok) = some t) :
    AllAccounted events results walOn t := by
  obtain ⟨hand, hholds, htally⟩ := h
  dsimp only [DrainState.step] at hstep
  generalize s.pc = pc at hholds hstep
  cases hholds with
  | markPending batch now =>
      cases ok with
      | true =>
          cases hstep
          exact ⟨_, .emitAccepted batch _ (acceptedOf_isAccepted batch),
            htally.advance (s.notes_goto rfl _) .pendingDone⟩
      | false =>
          cases hstep
          obtain ⟨counted, htaken, -⟩ := htally.eventCount
          exact ⟨_, .refused batch now,
            { htally.countEvents with refused := ⟨counted, htaken.symm⟩ }⟩
  | markCompleted batch now' arrived env keys =>
      cases ok with
      | true =>
          cases hstep
          have hdone : Tally events results walOn (s.note (.walDone
              (.markCompleted now' arrived env keys))) { resultBatch := batch } :=
            htally.advance (s.notes_goto rfl s.pc) .completedDone
          exact ⟨_, .head, hdone.countResults.same rfl rfl rfl rfl rfl⟩
      | false =>
          cases hstep
          exact ⟨_, .failed, htally.countResults.same rfl rfl rfl rfl rfl⟩
  | _ => cases hstep

theorem AllAccounted.step (h : AllAccounted events results walOn s) {l : DrainLabel}
    (hstep : s.step walOn l = some t) : AllAccounted events results walOn t := by
  cases l with
  | eventArrives e => exact h.eventArrives hstep
  | resultArrives r => exact h.resultArrives hstep
  | clock passed => exact h.clock hstep
  | tryRecv => exact h.tryRecv hstep
  | emit now => exact h.emit hstep
  | proceed => exact h.proceed hstep
  | walCall now arrived env => exact h.walCall hstep
  | walReturn ok => exact h.walReturn hstep

/-! ## The last look at the queues -/

/-- A queue was found empty, and everything that had arrived by then was
taken. -/
def EventsSeen (events : List ShareAcceptedEvent) (trace : List DrainEffect) :
    Prop :=
  ∃ before after, trace = before ++ .eventsEmpty :: after ∧
    takenEvents trace = events ++ arrivedEvents before

def ResultsSeen (results : List ShareForwardResult) (trace : List DrainEffect) :
    Prop :=
  ∃ before after, trace = before ++ .resultsEmpty :: after ∧
    takenResults trace = results ++ arrivedResults before

/-- A pass that has moved nothing has seen the queue of events empty; a drain
that is done has seen both. A drain that timed out names what it left. -/
structure Looked (events : List ShareAcceptedEvent)
    (results : List ShareForwardResult) (s : DrainState) : Prop where
  pass : s.pc = .tryResults → s.moved = false → EventsSeen events s.trace
  done : s.pc = .returned (.ok ()) →
    EventsSeen events s.trace ∧ ResultsSeen results s.trace
  left : ∀ n m, s.pc = .returned (.error (.timedOut n m)) →
    n = s.events.length ∧ m = s.results.length

theorem EventsSeen.append {trace : List DrainEffect}
    (h : EventsSeen events trace) {x : DrainEffect} (hx : x.eventTaken? = none) :
    EventsSeen events (trace ++ [x]) := by
  obtain ⟨before, after, htrace, htaken⟩ := h
  refine ⟨before, after ++ [x], ?_, ?_⟩
  · rw [htrace, List.append_assoc, List.cons_append]
  · rw [takenEvents_append, hx, Option.toList_none, List.append_nil, htaken]

theorem Tally.eventsSeen {hand : Hand} (h : Tally events results walOn s hand)
    (hempty : s.events = []) : EventsSeen events (s.trace ++ [.eventsEmpty]) := by
  refine ⟨s.trace, [], rfl, ?_⟩
  rw [takenEvents_append, h.eventQueue, hempty]
  rfl

theorem Tally.resultsSeen {hand : Hand} (h : Tally events results walOn s hand)
    (hempty : s.results = []) :
    ResultsSeen results (s.trace ++ [.resultsEmpty]) := by
  refine ⟨s.trace, [], rfl, ?_⟩
  rw [takenResults_append, h.resultQueue, hempty]
  rfl

/-- The places that the looks say nothing about. -/
def DrainPc.quiet : DrainPc → Bool
  | .tryResults => false
  | .returned _ => false
  | _ => true

theorem Looked.of_quiet (h : t.pc.quiet = true) : Looked events results t := by
  refine ⟨?_, ?_, ?_⟩
  · intro hpc
    rw [hpc] at h
    cases h
  · intro hpc
    rw [hpc] at h
    cases h
  · intro _ _ hpc
    rw [hpc] at h
    cases h

/-- A drain that returns an error says what it left only if it timed out. -/
theorem Looked.of_error {error : DrainError} (hpc : t.pc = .returned (.error error))
    (hleft : ∀ n m, error = .timedOut n m →
      n = t.events.length ∧ m = t.results.length) :
    Looked events results t := by
  refine ⟨?_, ?_, ?_⟩
  · intro h
    rw [hpc] at h
    cases h
  · intro h
    rw [hpc] at h
    cases h
  · intro n m h
    rw [hpc] at h
    cases h
    exact hleft n m rfl

/-- An arrival changes nothing that was seen. -/
theorem Looked.arrives (h : Looked events results s) {x : DrainEffect}
    (hx : x.eventTaken? = none) (hruns : ∀ outcome, s.pc ≠ .returned outcome)
    (hpc : t.pc = s.pc) (hmoved : t.moved = s.moved)
    (htrace : t.trace = s.trace ++ [x]) : Looked events results t where
  pass htry hstill := by
    rw [htrace]
    exact (h.pass (hpc ▸ htry) (hmoved ▸ hstill)).append hx
  done hdone := absurd (hpc ▸ hdone) (hruns _)
  left _ _ hleft := absurd (hpc ▸ hleft) (hruns _)

theorem Looked.clock {passed : Bool}
    (hstep : s.step walOn (.clock passed) = some t) : Looked events results t := by
  dsimp only [DrainState.step] at hstep
  split at hstep
  · split at hstep
    · cases hstep
      refine .of_error rfl ?_
      intro n m h
      cases h
      exact ⟨rfl, rfl⟩
    · cases hstep
      exact .of_quiet rfl
  · cases hstep

theorem Looked.tryRecv (h : Looked events results s)
    (haccounted : AllAccounted events results walOn s)
    (hstep : s.step walOn .tryRecv = some t) : Looked events results t := by
  obtain ⟨hand, -, htally⟩ := haccounted
  dsimp only [DrainState.step] at hstep
  split at hstep
  · split at hstep
    · rename_i hempty
      cases hstep
      refine ⟨fun _ _ => htally.eventsSeen hempty, ?_, ?_⟩
      · intro h
        cases h
      · intro _ _ h
        cases h
    · cases hstep
      exact .of_quiet rfl
  · split at hstep
    · split at hstep
      · cases hstep
        exact .of_quiet rfl
      · cases hstep
        exact .of_quiet rfl
    · cases hstep
  · rename_i hpc
    split at hstep
    · rename_i hempty
      cases hstep
      cases hmoved : s.moved with
      | true => exact .of_quiet rfl
      | false =>
          refine ⟨?_, ?_, ?_⟩
          · intro h
            cases h
          · intro _
            exact ⟨(h.pass hpc hmoved).append rfl, htally.resultsSeen hempty⟩
          · intro _ _ h
            cases h
    · cases hstep
      exact .of_quiet rfl
  · split at hstep
    · split at hstep
      · cases hstep
        exact .of_quiet rfl
      · cases hstep
        exact .of_quiet rfl
    · cases hstep
  · cases hstep

theorem Looked.emit {now : UInt64} (hstep : s.step walOn (.emit now) = some t) :
    Looked events results t := by
  dsimp only [DrainState.step] at hstep
  split at hstep
  · cases hstep
    exact .of_quiet rfl
  · cases hstep
    exact .of_quiet rfl
  · cases hstep
    exact .of_quiet rfl
  · cases hstep

theorem Looked.proceed (hstep : s.step walOn .proceed = some t) :
    Looked events results t := by
  dsimp only [DrainState.step] at hstep
  split at hstep
  · split at hstep
    · cases hstep
    · cases hstep
      exact .of_quiet rfl
  · split at hstep
    · cases hstep
    · cases hstep
      exact .of_quiet rfl
  · cases hstep
    -- The batch that was just recorded is one that moved.
    refine ⟨?_, ?_, ?_⟩
    · intro _ h
      cases h
    · intro h
      cases h
    · intro _ _ h
      cases h
  · split at hstep
    · cases hstep
    · cases hstep
      exact .of_quiet rfl
  · split at hstep
    · cases hstep
    · cases hstep
      exact .of_quiet rfl
  · cases hstep

theorem Looked.walCall {now : UInt64} {arrived : ℕ} {env : CompactionEnv}
    (hstep : s.step walOn (.walCall now arrived env) = some t) :
    Looked events results t := by
  dsimp only [DrainState.step] at hstep
  split at hstep
  · split at hstep
    · cases hstep
      exact .of_quiet rfl
    · cases hstep
  · split at hstep
    · cases hstep
      exact .of_quiet rfl
    · cases hstep
  · cases hstep

theorem Looked.walReturn {ok : Bool}
    (hstep : s.step walOn (.walReturn ok) = some t) : Looked events results t := by
  dsimp only [DrainState.step] at hstep
  split at hstep
  · split at hstep
    · cases hstep
      exact .of_quiet rfl
    · cases hstep
      exact .of_error rfl (by intro _ _ h; cases h)
  · split at hstep
    · cases hstep
      exact .of_quiet rfl
    · cases hstep
      exact .of_error rfl (by intro _ _ h; cases h)
  · cases hstep

theorem Looked.step (h : Looked events results s)
    (haccounted : AllAccounted events results walOn s) {l : DrainLabel}
    (hstep : s.step walOn l = some t) : Looked events results t := by
  cases l with
  | eventArrives e =>
      dsimp only [DrainState.step] at hstep
      split at hstep
      · cases hstep
      · rename_i hruns
        cases hstep
        exact h.arrives rfl hruns rfl rfl rfl
  | resultArrives r =>
      dsimp only [DrainState.step] at hstep
      split at hstep
      · cases hstep
      · rename_i hruns
        cases hstep
        exact h.arrives rfl hruns rfl rfl rfl
  | clock passed => exact .clock hstep
  | tryRecv => exact h.tryRecv haccounted hstep
  | emit now => exact .emit hstep
  | proceed => exact .proceed hstep
  | walCall now arrived env => exact .walCall hstep
  | walReturn ok => exact .walReturn hstep

/-! ## Whole drains -/

/-- What a drain leaves: what it took is emitted, unless the log refused a
batch, of which the accepted events are not. A drain without an error has seen
both queues empty. -/
def DrainedAs (events : List ShareAcceptedEvent)
    (results : List ShareForwardResult) (s : DrainState) :
    Except DrainError Unit → Prop
  | .ok () =>
      (takenEvents s.trace).Perm (emittedEvents s.trace) ∧
        EventsSeen events s.trace ∧ ResultsSeen results s.trace
  | .error (.timedOut n m) =>
      (takenEvents s.trace).Perm (emittedEvents s.trace) ∧
        n = s.events.length ∧ m = s.results.length
  | .error .markPending =>
      ∃ batch now, batch <:+ takenEvents s.trace ∧
        (takenEvents s.trace).Perm (emittedEvents s.trace ++ acceptedOf batch) ∧
        .walCalled (.markPending now
          ((acceptedOf batch).map ShareAcceptedEvent.key)) ∈ s.trace
  | .error .markCompleted =>
      (takenEvents s.trace).Perm (emittedEvents s.trace)

theorem AllAccounted.drainedAs (h : AllAccounted events results walOn s)
    (hlooked : Looked events results s) {outcome : Except DrainError Unit}
    (hreturned : s.pc = .returned outcome) :
    DrainedAs events results s outcome := by
  obtain ⟨hand, hholds, htally⟩ := h
  have hdone := hlooked.done
  have hleft := hlooked.left
  have hevents := htally.events
  have hcall := htally.call
  have hrefused := htally.refused
  rw [hreturned] at hholds hdone hleft
  cases hholds with
  | returned =>
      rw [List.append_nil] at hevents
      exact ⟨hevents, hdone rfl⟩
  | timedOut n m =>
      rw [List.append_nil] at hevents
      exact ⟨hevents, hleft n m rfl⟩
  | refused batch now => exact ⟨batch, now, hrefused, hevents, hcall _ rfl⟩
  | failed =>
      rw [List.append_nil] at hevents
      exact hevents

end

/-- Whatever arrives during the drain and whatever its calls of the log come
to: every item is still queued or taken, the counts are those of the items
taken, every result taken is emitted once, and so is every event taken but the
accepted ones of a batch that the log refused. With a log, accepted events are
emitted after their pending records are durable, and results before their
completed records are written. -/
theorem drain_on_stop_loses_nothing {walOn : Bool}
    {events : List ShareAcceptedEvent} {results : List ShareForwardResult}
    {labels : List DrainLabel} {s : DrainState} {outcome : Except DrainError Unit}
    (hrun : run (DrainState.step walOn) (.initial events results) labels = some s)
    (hreturned : s.pc = .returned outcome) :
    events ++ arrivedEvents s.trace = takenEvents s.trace ++ s.events ∧
      results ++ arrivedResults s.trace = takenResults s.trace ++ s.results ∧
      s.drainedEvents = (takenEvents s.trace).length ∧
      s.drainedResults = (takenResults s.trace).length ∧
      takenResults s.trace = emittedResults s.trace ∧
      (walOn = true → InOrder s.trace) ∧ DrainedAs events results s outcome := by
  have hinv : AllAccounted events results walOn s ∧ Looked events results s := by
    refine invariant_of_run
      (I := fun s => AllAccounted events results walOn s ∧ Looked events results s)
      (fun _ _ _ h hstep => ?_) ?_ hrun
    · exact ⟨h.1.step hstep, h.2.step h.1 hstep⟩
    · exact ⟨⟨_, .head, .initial events results walOn⟩, .of_quiet rfl⟩
  obtain ⟨haccounted, hlooked⟩ := hinv
  have hdrained := haccounted.drainedAs hlooked hreturned
  obtain ⟨hand, hholds, htally⟩ := haccounted
  have hnone : hand.eventBatch = [] ∧ hand.resultBatch = [] ∧ hand.results = [] := by
    rw [hreturned] at hholds
    cases hholds <;> exact ⟨rfl, rfl, rfl⟩
  obtain ⟨counted, htaken, hcount⟩ := htally.eventCount
  obtain ⟨counted', htaken', hcount'⟩ := htally.resultCount
  have hresults := htally.results
  rw [hnone.1, List.append_nil] at htaken
  rw [hnone.2.1, List.append_nil] at htaken'
  rw [hnone.2.2, List.append_nil] at hresults
  exact ⟨htally.eventQueue, htally.resultQueue, htaken ▸ hcount, htaken' ▸ hcount',
    hresults, htally.inOrder, hdrained⟩

/-- One accepted event is queued, and its result arrives while its pending
record is written. -/
def drainOfOne (r : ShareForwardResult) : List DrainLabel :=
  [.clock false, .tryRecv, .tryRecv, .walCall 7 0 (WalState.storedEnv 0 7),
    .resultArrives r, .walReturn true, .emit 7, .proceed, .tryRecv, .tryRecv,
    .emit 8, .walCall 8 0 (WalState.storedEnv 0 8), .walReturn true,
    .clock false, .tryRecv, .tryRecv]

theorem drain_on_stop_loses_nothing_drainOfOne :
    ∃ s, run (DrainState.step true)
        (.initial [Accounting.acceptedEvent "a1" "e1"] [])
        (drainOfOne ⟨"a1", "e1", true, none, none, none, none⟩) = some s ∧
      s.drainedEvents = (takenEvents s.trace).length ∧
      takenResults s.trace = emittedResults s.trace ∧ InOrder s.trace ∧
      DrainedAs [Accounting.acceptedEvent "a1" "e1"] [] s (.ok ()) := by
  obtain ⟨s, hrun, hreturned⟩ : ∃ s, run (DrainState.step true)
      (.initial [Accounting.acceptedEvent "a1" "e1"] [])
      (drainOfOne ⟨"a1", "e1", true, none, none, none, none⟩) = some s ∧
        s.pc = .returned (.ok ()) := ⟨_, rfl, rfl⟩
  have h := drain_on_stop_loses_nothing hrun hreturned
  exact ⟨s, hrun, h.2.2.1, h.2.2.2.2.1, h.2.2.2.2.2.1 rfl, h.2.2.2.2.2.2⟩

end ReserveGrid.Gateway
