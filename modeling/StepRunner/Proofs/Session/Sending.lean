import StepRunner.Proofs.Connection.Writing
import StepRunner.Proofs.Session.Interpreter

namespace StepRunner

/-- The response as it goes over the connection. -/
def Exchange.framed (exchange : Exchange) : Bytes := Frame.encode exchange.response.encode

namespace Session

/-- The responses of all the exchanges are written whole and flushed, in turn. -/
inductive SendsAll : List Exchange → Sink → Sink → Prop
  | nil (sink : Sink) : SendsAll [] sink sink
  | cons {exchange : Exchange} {exchanges : List Exchange} {sink middle later : Sink} {taken : Bytes}
      (hsends : Frame.Sends exchange.response.encode sink taken .whole middle)
      (hrest : SendsAll exchanges middle later) : SendsAll (exchange :: exchanges) sink later

/-- The responses of `answered` are sent whole, and of the response after them only `part` is. -/
structure BreaksOff (exchanges : List Exchange) (sink : Sink) (answered : List Exchange)
    (broken : Exchange) (part : Bytes) (ending : WriteEnd) (later : Sink) : Prop where
  splits : ∃ unanswered, exchanges = answered ++ broken :: unanswered
  sends : ∃ middle, SendsAll answered sink middle ∧
    Frame.Sends broken.response.encode middle part ending later
  fails : ending ≠ .whole

section

variable {exchange broken : Exchange} {exchanges answered : List Exchange}
  {sink middle later : Sink} {part taken : Bytes} {ending : WriteEnd}

theorem SendsAll.written (h : SendsAll exchanges sink later) :
    later.written = sink.written ++ exchanges.flatMap Exchange.framed := by
  induction h with
  | nil sink => simp
  | cons hsends _ ih =>
    rw [ih, hsends.written, hsends.eq_of_whole, List.flatMap_cons, List.append_assoc]
    rfl

theorem BreaksOff.cons (hsends : Frame.Sends exchange.response.encode sink taken .whole middle)
    (h : BreaksOff exchanges middle answered broken part ending later) :
    BreaksOff (exchange :: exchanges) sink (exchange :: answered) broken part ending later := by
  obtain ⟨⟨unanswered, rfl⟩, ⟨last, hall, hbroken⟩, hfails⟩ := h
  exact ⟨⟨unanswered, rfl⟩, ⟨last, .cons hsends hall, hbroken⟩, hfails⟩

theorem BreaksOff.written (h : BreaksOff exchanges sink answered broken part ending later) :
    later.written = sink.written ++ (answered.flatMap Exchange.framed ++ part) := by
  obtain ⟨-, ⟨middle, hall, hbroken⟩, -⟩ := h
  rw [hbroken.written, hall.written, List.append_assoc]

theorem BreaksOff.isPrefix (h : BreaksOff exchanges sink answered broken part ending later) :
    part <+: broken.framed := by
  obtain ⟨-, ⟨middle, -, hbroken⟩, -⟩ := h
  exact hbroken.isPrefix

/-- What does not arrive is the rest of the broken response and all those after it. -/
theorem BreaksOff.exists_missing
    (h : BreaksOff exchanges sink answered broken part ending later) :
    ∃ missing, exchanges.flatMap Exchange.framed =
      answered.flatMap Exchange.framed ++ part ++ missing := by
  obtain ⟨unanswered, hsplit⟩ := h.splits
  obtain ⟨rest, hrest⟩ := h.isPrefix
  refine ⟨rest ++ unanswered.flatMap Exchange.framed, ?_⟩
  calc exchanges.flatMap Exchange.framed
      = answered.flatMap Exchange.framed ++
          (broken.framed ++ unanswered.flatMap Exchange.framed) := by
        rw [hsplit, List.flatMap_append, List.flatMap_cons]
    _ = _ := by rw [← hrest]; simp only [List.append_assoc]

end

/-- Either all the responses are sent, or the session ends at the first that is not. -/
theorem deliver_cases (session : Session) (sink : Sink) :
    (∃ later, SendsAll session.exchanges sink later ∧
      session.deliver sink = (session.result, later, session.world)) ∨
    ∃ answered broken part ending later,
      BreaksOff session.exchanges sink answered broken part ending later ∧
      session.deliver sink = (.done (.ok .transportClosed), later, broken.after) := by
  rcases session with ⟨exchanges, result, world⟩
  induction exchanges generalizing sink with
  | nil => exact .inl ⟨sink, .nil sink, rfl⟩
  | cons exchange exchanges ih =>
    have hdeliver := deliver_cons exchange ⟨exchanges, result, world⟩ sink
    obtain ⟨taken, ending, hsends, hreports⟩ := Frame.exists_sends exchange.response.encode sink
    generalize Frame.write exchange.response.encode sink = run at hdeliver hsends hreports
    obtain ⟨written, middle⟩ := run
    cases ending with
    | whole =>
      obtain rfl : written = .ok () := hreports
      rcases ih middle with ⟨later, hall, hrest⟩ | ⟨answered, broken, part, ending, later, h, hrest⟩
      · exact .inl ⟨later, .cons hsends hall, hdeliver.trans hrest⟩
      · exact .inr ⟨_, broken, part, ending, later, h.cons hsends, hdeliver.trans hrest⟩
    | broken e =>
      obtain rfl : written = .error e := hreports
      exact .inr ⟨[], exchange, taken, .broken e, middle,
        ⟨⟨exchanges, rfl⟩, ⟨sink, .nil sink, hsends⟩, by simp⟩, hdeliver⟩
    | endless =>
      obtain ⟨e, rfl⟩ := hreports
      exact .inr ⟨[], exchange, taken, .endless, middle,
        ⟨⟨exchanges, rfl⟩, ⟨sink, .nil sink, hsends⟩, by simp⟩, hdeliver⟩

end Session

namespace Dispatcher

variable (dispatcher : Dispatcher)

/-- A session that is killed ends with the answer to a kill. -/
theorem exists_kill_of_converse {exit : Except ProtocolError LoopExit} {frames : List Bytes}
    {world : World} (hexit : exit ≠ .ok .killed)
    (h : (dispatcher.converse exit frames world).result = .done (.ok .killed)) :
    ∃ answered kill, (dispatcher.converse exit frames world).exchanges = answered ++ [kill] ∧
      kill.request.type = .killProcess := by
  fun_induction dispatcher.converse exit frames world with
  | case1 => exact absurd (Outcome.done.inj h) hexit
  | case2 | case3 | case4 => cases h
  | case5 frame frames world request hd response after hp ih =>
    by_cases hk : request.type = .killProcess
    · exact ⟨[], ⟨request, world, response, after⟩, by rw [if_pos hk]; rfl, hk⟩
    · rw [if_neg hk] at h ⊢
      obtain ⟨answered, kill, hlast, hkill⟩ := ih h
      exact ⟨⟨request, world, response, after⟩ :: answered, kill, congrArg _ hlast, hkill⟩

theorem exists_kill_of_session {stream : Stream} {world : World}
    (h : (dispatcher.session stream world).result = .done (.ok .killed)) :
    ∃ answered kill, (dispatcher.session stream world).exchanges = answered ++ [kill] ∧
      kill.request.type = .killProcess := by
  refine dispatcher.exists_kill_of_converse ?_ h
  cases (Frame.cutAll stream.bytes).2 with
  | nothing => cases stream.failure <;> simp [Frame.Tail.exit]
  | short | bad fault => simp [Frame.Tail.exit]

/-- What a run comes to is what delivering its session comes to. -/
theorem run_eq_deliver (source : Source) (sink : Sink) (world : World) :
    let served := dispatcher.run (.ofParts source sink) world
    let delivered := (dispatcher.session source.stream world).deliver sink
    served.result = delivered.1 ∧ served.world = delivered.2.2 ∧
      served.transport.sink.written = delivered.2.1.written := by
  intro served delivered
  obtain ⟨hresult, hworld, hwritten⟩ := run_eq_serve dispatcher (.ofParts source sink) world
  have hserve : (dispatcher.serve (.ofParts source sink) world).outcome = delivered :=
    (dispatcher.serve_eq_deliver source sink world).1
  refine ⟨hresult.trans (congrArg Prod.fst hserve), ?_, ?_⟩
  · exact hworld.trans (congrArg (fun outcome => outcome.2.2) hserve)
  · exact hwritten.trans (congrArg (fun outcome => outcome.2.1.written) hserve)

/-- **What arrives at a faulty writer is the front of what was to be sent.** The run ends at the
first response that is not written and flushed. -/
theorem run_sends_prefix (source : Source) (sink : Sink) {ideal : Sink} (hideal : ideal.Accepting)
    (world : World) :
    let exchanges := (dispatcher.session source.stream world).exchanges
    let served := dispatcher.run (.ofParts source sink) world
    let wanted := dispatcher.run (.ofParts source ideal) world
    ∃ sent missing,
      served.transport.sink.written = sink.written ++ sent ∧
      wanted.transport.sink.written = ideal.written ++ (sent ++ missing) ∧
      ((missing = [] ∧ served.result = wanted.result ∧ served.world = wanted.world ∧
          ∃ later, Session.SendsAll exchanges sink later) ∨
        ∃ answered broken part ending later,
          Session.BreaksOff exchanges sink answered broken part ending later ∧
          sent = answered.flatMap Exchange.framed ++ part ∧ part <+: broken.framed ∧
          served.world = broken.after ∧
          ∀ e, ending = .broken e → served.result = .done (.ok .transportClosed)) ∧
      (served.result = .done (.ok .killed) → ∃ answered kill later,
        exchanges = answered ++ [kill] ∧ kill.request.type = .killProcess ∧
          Session.SendsAll exchanges sink later) := by
  intro exchanges served wanted
  obtain ⟨hresult, hworld, hwritten⟩ := dispatcher.run_eq_deliver source sink world
  obtain ⟨hideals, hideald, hidealw⟩ := dispatcher.run_of_accepting source hideal world
  have hall : (dispatcher.session source.stream world).written =
      exchanges.flatMap Exchange.framed := rfl
  rcases (dispatcher.session source.stream world).deliver_cases sink with
    ⟨later, hsends, hdeliver⟩ | ⟨answered, broken, part, ending, later, hbreaks, hdeliver⟩
  · rw [hdeliver] at hresult hworld hwritten
    refine ⟨exchanges.flatMap Exchange.framed, [], hwritten.trans hsends.written, ?_, ?_, ?_⟩
    · rw [List.append_nil, ← hall]
      exact hidealw
    · exact .inl ⟨rfl, hresult.trans hideals.symm, hworld.trans hideald.symm, later, hsends⟩
    · intro hkilled
      obtain ⟨answered, kill, hlast, hkill⟩ :=
        dispatcher.exists_kill_of_session (hresult.symm.trans hkilled)
      exact ⟨answered, kill, later, hlast, hkill, hsends⟩
  · rw [hdeliver] at hresult hworld hwritten
    obtain ⟨missing, hmissing⟩ := hbreaks.exists_missing
    refine ⟨answered.flatMap Exchange.framed ++ part, missing, hwritten.trans hbreaks.written,
      ?_, ?_, ?_⟩
    · rw [← hmissing, ← hall]
      exact hidealw
    · exact .inr ⟨answered, broken, part, ending, later, hbreaks, rfl, hbreaks.isPrefix, hworld,
        fun _ _ => hresult⟩
    · intro hkilled
      rw [hkilled] at hresult
      cases hresult

/-- The writer breaks after twenty bytes: the names of no steps arrive, and a part of the answer to
the kill. -/
theorem run_sends_prefix_of_broken_pipe :
    let source : Source := [.data [15, 8, 12, 16, 255, 255, 255, 255], .data [255, 255, 255, 255,
      255, 1, 122, 0, 4, 8, 14, 16, 3]]
    let sink : Sink := { Sink.unlimited with
      script := [.accepts 5, .fails (.ofKind .interrupted)]
      chunk := some 7
      room := some 15
      whenFull := some (.ofKind .brokenPipe) }
    let dispatcher := standard .empty .empty ⟨none⟩
    let served := dispatcher.run (.ofParts source sink) .fresh
    let wanted := dispatcher.run (.ofParts source .unlimited) .fresh
    Sink.unlimited.Accepting ∧ served.result = .done (.ok .transportClosed) ∧
      served.transport.sink.written = [16, 8, 13, 16, 255, 255, 255, 255, 255, 255, 255, 255, 255,
        1, 130, 1, 0, 14, 8, 11] ∧
      ∃ missing, wanted.transport.sink.written = served.transport.sink.written ++ missing := by
  intro source sink dispatcher served wanted
  obtain ⟨hresult, -, hwritten⟩ := dispatcher.run_eq_deliver source sink .fresh
  obtain ⟨sent, missing, hsent, hwanted, -⟩ :=
    run_sends_prefix dispatcher source sink Sink.accepting_unlimited .fresh
  refine ⟨Sink.accepting_unlimited, hresult.trans (by cbv), hwritten.trans (by cbv), missing, ?_⟩
  rw [hsent]
  exact hwanted

end Dispatcher

end StepRunner
