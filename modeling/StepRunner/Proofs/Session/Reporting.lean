import Mathlib.Data.List.Forall2
import Mathlib.Data.List.Infix
import StepRunner.Proofs.Session.Correlation
import StepRunner.Proofs.Session.Results
import StepRunner.Proofs.Session.Sending

namespace StepRunner

namespace Session

/-- Each exchange takes up the world that the one before it left. -/
inductive Links : World → List Exchange → World → Prop
  | nil (world : World) : Links world [] world
  | cons {exchange : Exchange} {exchanges : List Exchange} {last : World}
      (hrest : Links exchange.after exchanges last) :
      Links exchange.before (exchange :: exchanges) last

variable {world last : World} {exchanges : List Exchange}

theorem Links.front {answered unanswered : List Exchange} {broken : Exchange}
    (h : Links world (answered ++ broken :: unanswered) last) :
    Links world (answered ++ [broken]) broken.after := by
  induction answered generalizing world with
  | nil =>
    cases h
    exact .cons (.nil _)
  | cons exchange answered ih =>
    cases h with
    | cons hrest => exact .cons (ih hrest)

theorem Links.grabs {runner : Runner} (h : Links world exchanges last)
    (hgrabs : ∀ exchange ∈ exchanges, exchange.after.grabs =
      exchange.before.grabs + if runner.TakesScreen exchange then 1 else 0) :
    last.grabs = world.grabs + exchanges.countP fun exchange => runner.TakesScreen exchange := by
  induction h with
  | nil world => rfl
  | @cons exchange exchanges last hrest ih =>
    obtain ⟨hfirst, hothers⟩ := List.forall_mem_cons.mp hgrabs
    rw [ih hothers, hfirst, List.countP_cons]
    simp only [decide_eq_true_eq]
    omega

/-- What is sent is whole responses in turn, up to a part of the last that was dispatched. -/
theorem exists_sent (session : Session) (sink : Sink)
    (hlinks : Links world session.exchanges session.world) :
    ∃ dispatched sent, dispatched <+: session.exchanges ∧
      (sink.Accepting → dispatched = session.exchanges ∧ sent = session.written) ∧
      (session.deliver sink).2.1.written = sink.written ++ sent ∧
      sent <+: dispatched.flatMap Exchange.framed ∧
      dispatched.dropLast.flatMap Exchange.framed <+: sent ∧
      Links world dispatched (session.deliver sink).2.2 := by
  have hends : (∃ later, session.deliver sink = (session.result, later, session.world) ∧
        later.written = sink.written ++ session.written) ∨
      (¬ sink.Accepting ∧ ∃ answered broken part ending later,
        BreaksOff session.exchanges sink answered broken part ending later ∧
        session.deliver sink = (.done (.ok .transportClosed), later, broken.after)) := by
    by_cases hsink : sink.Accepting
    · exact .inl (session.deliver_of_accepting hsink)
    · rcases session.deliver_cases sink with ⟨later, hsends, hdeliver⟩ | hbreaks
      · exact .inl ⟨later, hdeliver, hsends.written⟩
      · exact .inr ⟨hsink, hbreaks⟩
  rcases hends with
    ⟨later, hdeliver, hwritten⟩ | ⟨hsink, answered, broken, part, ending, later, hbreaks, hdeliver⟩
  · rw [hdeliver]
    exact ⟨session.exchanges, session.written, List.prefix_refl _, fun _ => ⟨rfl, rfl⟩, hwritten,
      List.prefix_refl _, (List.dropLast_prefix _).flatMap _, hlinks⟩
  · rw [hdeliver]
    obtain ⟨unanswered, hsplit⟩ := hbreaks.splits
    rw [hsplit] at hlinks ⊢
    refine ⟨answered ++ [broken], _, ⟨unanswered, by simp⟩, fun h => absurd h hsink,
      hbreaks.written, ?_, ?_, hlinks.front⟩
    · rw [List.flatMap_append, List.flatMap_singleton]
      exact (List.prefix_append_right_inj _).mpr hbreaks.isPrefix
    · rw [List.dropLast_concat]
      exact List.prefix_append _ _

end Session

namespace Dispatcher

/-- The exchanges of a session that no panic ends lead to its world. -/
theorem links_converse {dispatcher : Dispatcher}
    (hreturns : ∀ request world reason after,
      dispatcher.dispatch request world ≠ (.panicked reason, after))
    (hrefuses : ∀ request world e after,
      dispatcher.dispatch request world = (.done (.error e), after) → after = world)
    (exit : Except ProtocolError LoopExit) (frames : List Bytes) (world : World) :
    Session.Links world (dispatcher.converse exit frames world).exchanges
      (dispatcher.converse exit frames world).world := by
  fun_induction dispatcher.converse exit frames world with
  | case1 | case2 => exact .nil _
  | case3 frame frames world request hd reason after hp =>
    exact absurd hp (hreturns request world reason after)
  | case4 frame frames world request hd e after hp =>
    obtain rfl := hrefuses request world e after hp
    exact .nil _
  | case5 frame frames world request hd response after hp ih =>
    refine @Session.Links.cons ⟨request, world, response, after⟩ _ _ ?_
    by_cases hk : request.type = .killProcess
    · rw [if_pos hk]
      exact .nil _
    · rw [if_neg hk]
      exact ih

end Dispatcher

namespace Runner

variable {runner : Runner}

/-- The host reads a message of the response's type off the frame, and what it tells is so. -/
structure Brings (runner : Runner) (exchange : Exchange) (frame : Frame.Whole) : Prop where
  decoded : ∃ message, Message.decode frame.payload = .ok message ∧
    message.type = exchange.response.type ∧ runner.Tells exchange message

theorem brings_of_sentAs {exchange : Exchange} {frame : Frame.Whole}
    (htells : runner.Tells exchange exchange.response) (hsent : exchange.SentAs frame) :
    runner.Brings exchange frame :=
  ⟨exchange.response.capped, hsent.decoded, rfl, htells.capped⟩

theorem links_session (hgrabber : ∀ grabber ∈ runner.grabber, grabber.Returns) (stream : Stream)
    (world : World) :
    let session := runner.dispatcher.session stream world
    Session.Links world session.exchanges session.world := by
  have hreturns : ∀ grabber ∈ runner.executor.grabber, grabber.Returns := by
    intro grabber hgrab
    rw [executor] at hgrab
    split at hgrab
    · exact hgrabber grabber hgrab
    · cases hgrab
  apply Dispatcher.links_converse
  · intro request world reason after hp
    exact not_grabberPanics hreturns reason after (Dispatcher.grabberPanics_of_dispatch hp)
  · intro request world e after hp
    exact (Dispatcher.refusal?_of_dispatch hp).2

/-- **A result has a message exactly if it is a failure, a trace exactly if a body failed, and the
screen exactly if the grabber then gave it.** The grabber is called for nothing else. -/
theorem run_reports (runner : Runner) (hgrabber : ∀ grabber ∈ runner.grabber, grabber.Returns)
    (source : Source) (sink : Sink) (world : World) :
    let exchanges := (runner.dispatcher.session source.stream world).exchanges
    let served := runner.dispatcher.run (.ofParts source sink) world
    (∀ exchange ∈ exchanges, runner.Tells exchange exchange.response ∧
      exchange.after.grabs =
        exchange.before.grabs + if runner.TakesScreen exchange then 1 else 0) ∧
      ∃ dispatched sent, dispatched <+: exchanges ∧
        (sink.Accepting → dispatched = exchanges ∧ sent = exchanges.flatMap Exchange.framed) ∧
        served.transport.sink.written = sink.written ++ sent ∧
        sent <+: dispatched.flatMap Exchange.framed ∧
        dispatched.dropLast.flatMap Exchange.framed <+: sent ∧
        served.world.grabs =
          world.grabs + dispatched.countP (fun exchange => runner.TakesScreen exchange) ∧
        ((∀ exchange ∈ dispatched, exchange.response.encode.length < Nat.pow 2 63) →
          ∃ frames : List Frame.Whole,
            dispatched.flatMap Exchange.framed = frames.flatMap Frame.Whole.bytes ∧
            List.Forall₂ runner.Brings dispatched frames) := by
  intro exchanges served
  have hdispatch : ∀ exchange ∈ exchanges,
      runner.dispatcher.dispatch exchange.request exchange.before =
        (.done (.ok exchange.response), exchange.after) :=
    Dispatcher.dispatch_of_handles (Dispatcher.handles_converse _)
  have htells := fun exchange hexchange =>
    tells_of_dispatch runner (hdispatch exchange hexchange)
  refine ⟨htells, ?_⟩
  obtain ⟨-, hworld, hwritten⟩ := runner.dispatcher.run_eq_deliver source sink world
  obtain ⟨dispatched, sent, hfront, hall, hsent, hwhole, hlast, hlinks⟩ :=
    (runner.dispatcher.session source.stream world).exists_sent sink
      (links_session hgrabber source.stream world)
  have hmem : ∀ exchange ∈ dispatched, exchange ∈ exchanges := fun _ h => hfront.subset h
  refine ⟨dispatched, sent, hfront, hall, hwritten.trans hsent, hwhole, hlast, ?_, ?_⟩
  · rw [show served.world = _ from hworld]
    exact hlinks.grabs fun exchange h => (htells exchange (hmem exchange h)).2
  · intro hlength
    obtain ⟨frames, hbytes, hframes⟩ := Dispatcher.exists_frames_sent runner.hooks runner.steps
      runner.executor (fun exchange h => hdispatch exchange (hmem exchange h)) hlength
    have hboth := (List.forall₂_and_left dispatched frames).mpr
      ⟨fun exchange h => (htells exchange (hmem exchange h)).1, hframes⟩
    exact ⟨frames, hbytes, hboth.imp fun _ _ h => brings_of_sentAs h.1 h.2⟩

/-- A hook fails and then a step panics: the grabber has a screen to give for the first only. -/
theorem run_reports_of_one_screen :
    let config : Config := ⟨".", "127.0.0.1", none, 30, true⟩
    let opens : Hook := ⟨"opens", fun _ => .done (.error (.failed "closed"))⟩
    let waits : Step := .ofText "Wait" fun _ => .panic .other
    let grabber : Action (Option Bytes) := .store .suite (.get "taken") fun reply =>
      if reply.value = none then .store .suite (.put "taken" .null) fun _ => .done (some [7])
      else .done none
    let runner : Runner := ⟨config, .ofList [(.beforeSuite, opens)], .ofList [waits], some grabber⟩
    let source : Source := [.data [4, 8, 0, 16, 1, 18, 8, 7, 16, 2, 82, 12, 10, 4, 87, 97, 105, 116],
      .data [18, 4, 87, 97, 105, 116, 4, 8, 14, 16, 3]]
    let responses : List Message :=
      [.executionStatus 1 ⟨true, 0, false, some "closed",
          some "closed\n    in hook \x60opens\x60", some [7]⟩,
        .executionStatus 2 ⟨true, 0, false, some "panic with non-string payload",
          some "panicked: panic with non-string payload\n    in step \x60Wait\x60", none⟩,
        .executionStatus 3 (.passed 0)]
    let session := runner.dispatcher.session source.stream .fresh
    let served := runner.dispatcher.run (.ofParts source .unlimited) .fresh
    (∀ grabber ∈ runner.grabber, grabber.Returns) ∧
      session.exchanges.map (·.response) = responses ∧
      (∀ exchange ∈ session.exchanges, exchange.response.encode.length < Nat.pow 2 63) ∧
      served.world.grabs = 2 ∧
      session.exchanges.countP (fun exchange => runner.TakesScreen exchange) = 2 ∧
      ∃ frames : List Frame.Whole,
        served.transport.sink.written = frames.flatMap Frame.Whole.bytes ∧
        List.Forall₂ runner.Brings session.exchanges frames := by
  intro config opens waits grabber runner source responses session served
  have hgrabber : ∀ grabber ∈ runner.grabber, grabber.Returns := by
    intro found hfound world
    cases hfound
    have hread : grabber.run world = (if (world.stores.reply .suite (.get "taken")).value = none
        then .store .suite (.put "taken" .null) fun _ => .done (some [7])
        else .done none : Action (Option Bytes)).run (world.perform .suite (.get "taken")).2 := rfl
    rw [hread]
    split <;> exact ⟨_, _, rfl⟩
  have hframes : Frame.cutAll source.stream.bytes = ([[8, 0, 16, 1],
      [8, 7, 16, 2, 82, 12, 10, 4, 87, 97, 105, 116, 18, 4, 87, 97, 105, 116], [8, 14, 16, 3]],
      .nothing) := by
    simp only [source]
    cbv
  have hstarting : Message.decode [8, 0, 16, 1] =
      .ok ⟨1, .lifecycle .executionStarting, .lifecycle .executionStarting none⟩ := by cbv
  have hexecute : Message.decode [8, 7, 16, 2, 82, 12, 10, 4, 87, 97, 105, 116, 18, 4, 87, 97, 105,
      116] = .ok ⟨2, .executeStep, .executeStep ⟨"Wait", "Wait", [], false⟩⟩ := rfl
  have hkill : Message.decode [8, 14, 16, 3] = .ok ⟨3, .killProcess, .killProcess⟩ := by cbv
  have hsession : session.exchanges.map (·.response) = responses ∧ session.world.grabs = 2 := by
    simp only [session, Dispatcher.session, hframes, Dispatcher.converse, hstarting, hexecute,
      hkill]
    exact ⟨rfl, rfl⟩
  obtain ⟨hresponses, htaken⟩ := hsession
  have hlength : ∀ exchange ∈ session.exchanges, exchange.response.encode.length < Nat.pow 2 63 := by
    have hsmall : ∀ response ∈ responses, response.encode.length < Nat.pow 2 63 := by
      decide +kernel
    intro exchange hexchange
    apply hsmall
    rw [← hresponses]
    exact List.mem_map_of_mem hexchange
  obtain ⟨-, dispatched, sent, -, hall, hsent, -, -, hgrabs, hbrings⟩ :=
    run_reports runner hgrabber source .unlimited .fresh
  obtain ⟨rfl, rfl⟩ := hall Sink.accepting_unlimited
  obtain ⟨frames, hbytes, hframes⟩ := hbrings hlength
  have hworld : served.world = session.world :=
    (runner.dispatcher.run_of_accepting source Sink.accepting_unlimited .fresh).2.1
  have hfresh : World.fresh.grabs = 0 := rfl
  rw [hworld, htaken, hfresh, Nat.zero_add] at hgrabs
  refine ⟨hgrabber, hresponses, hlength, hworld ▸ htaken, hgrabs.symm, frames, ?_, hframes⟩
  rw [← hbytes]
  exact hsent

end Runner

end StepRunner
