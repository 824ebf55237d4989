import StepRunner.Proofs.Session.Calls
import StepRunner.Proofs.Session.Dispatch
import StepRunner.Proofs.Session.Sending

namespace StepRunner

namespace Message

/-- The request starts a scope: it is to empty the scope's store. -/
def Starts (request : Message) (scope : Scope) : Prop :=
  request.type = .storeInit scope ∧ request.Fits

/-- What a request itself does to the stores. -/
def clearing (request : Message) (stores : Stores) : List Access :=
  match request.type with
  | .storeInit scope => if request.Fits then [⟨scope, .clear, stores.reply scope .clear⟩] else []
  | _ => []

/-- Requests that call no body and start no scope. -/
inductive Idle (steps : StepRegistry) (request : Message) : Prop
  | names (htype : request.type = .stepNamesRequest)
  | validate (htype : request.type = .stepValidateRequest)
  | kill (htype : request.type = .killProcess)
  | unknown (sent : ExecuteStepRequest) (hpayload : request.payload = .executeStep sent)
      (hnone : steps.get? sent.parsedStepText = none)

/-- The bodies that a request has called. -/
inductive Invokes (hooks : HookRegistry) (steps : StepRegistry) (executor : Executor) :
    Message → List Invocation → Prop
  | hooks {id : Int64} {event : LifecycleEvent} {category : HookCategory}
      {info : Option ExecutionInfo} {failed : Bool} {invocations grabbed : List Invocation}
      (hmoment : (event, category) ∈ LifecycleEvent.moments)
      (hcalls : Hook.Calls (info.getD .empty) (hooks.get category).hooks invocations failed)
      (hgrabs : executor.Grabs failed grabbed) :
      Invokes hooks steps executor ⟨id, .lifecycle event, .lifecycle event info⟩
        (invocations ++ grabbed)
  | step {id : Int64} {sent : ExecuteStepRequest} {step : Step} {accesses : List Access}
      {outcome : Outcome (Except HookError Unit)} {grabbed : List Invocation}
      (hstep : steps.get? sent.parsedStepText = some step)
      (hmakes : (step.body sent.parameters).Makes accesses outcome)
      (hgrabs : executor.Grabs outcome.fails grabbed) :
      Invokes hooks steps executor ⟨id, .executeStep, .executeStep sent⟩
        (⟨.stepCalled step.text sent.parameters, accesses⟩ :: grabbed)
  | idle {request : Message} (hidle : request.Idle steps) : Invokes hooks steps executor request []
  | starts {request : Message} {scope : Scope} (hstarts : request.Starts scope) :
      Invokes hooks steps executor request []
  | refused {request : Message} {e : ProtocolError} (hrefusal : request.refusal? = some e) :
      Invokes hooks steps executor request []

variable {request : Message} {hooks : HookRegistry} {steps : StepRegistry} {executor : Executor}

theorem clearing_of_starts {scope : Scope} (h : request.Starts scope) (stores : Stores) :
    request.clearing stores = [⟨scope, .clear, stores.reply scope .clear⟩] := by
  rw [clearing, h.1]
  exact if_pos h.2

theorem clearing_of_not_starts (h : ∀ scope, ¬ request.Starts scope) (stores : Stores) :
    request.clearing stores = [] := by
  rw [clearing]
  split
  · next scope htype => exact if_neg fun hfits => h scope ⟨htype, hfits⟩
  · rfl

theorem Starts.refusal? {scope : Scope} (h : request.Starts scope) : request.refusal? = none := by
  refine refusal?_eq_none.mpr ⟨?_, h.2⟩
  rw [h.1]
  simp [MessageType.responseType?]

theorem Starts.not_idle {scope : Scope} (h : request.Starts scope) : ¬ request.Idle steps := by
  obtain ⟨htype, hfits⟩ := h
  intro hidle
  cases hidle with
  | names hother | validate hother | kill hother =>
    rw [htype] at hother
    cases hother
  | unknown sent hpayload =>
    rw [Fits, hpayload, htype] at hfits
    cases hfits

theorem Starts.eq {scope other : Scope} (h : request.Starts scope) (h' : request.Starts other) :
    other = scope :=
  MessageType.storeInit.inj (h'.1.symm.trans h.1)

theorem Invokes.eq_nil_of_idle {invocations : List Invocation}
    (h : Invokes hooks steps executor request invocations) (hidle : request.Idle steps) :
    invocations = [] := by
  cases h with
  | hooks => cases hidle <;> contradiction
  | step hstep =>
    cases hidle with
    | unknown sent hpayload hnone =>
      cases hpayload
      rw [hstep] at hnone
      cases hnone
    | names htype | validate htype | kill htype => cases htype
  | idle | starts | refused => rfl

/-- The requests that call bodies do nothing else. -/
theorem Invokes.of_lifecycle {id : Int64} {event : LifecycleEvent} {info : Option ExecutionInfo}
    {invocations : List Invocation}
    (h : Invokes hooks steps executor ⟨id, .lifecycle event, .lifecycle event info⟩ invocations) :
    ∃ category failed calls grabbed, (event, category) ∈ LifecycleEvent.moments ∧
      Hook.Calls (info.getD .empty) (hooks.get category).hooks calls failed ∧
      executor.Grabs failed grabbed ∧ invocations = calls ++ grabbed := by
  cases h with
  | hooks hmoment hcalls hgrabs => exact ⟨_, _, _, _, hmoment, hcalls, hgrabs, rfl⟩
  | idle hidle => cases hidle <;> contradiction
  | starts hstarts => cases hstarts.1
  | refused hrefusal =>
    have hnone : refusal? ⟨id, .lifecycle event, .lifecycle event info⟩ = none :=
      refusal?_eq_none.mpr ⟨by simp [MessageType.responseType?], rfl⟩
    rw [hnone] at hrefusal
    cases hrefusal

theorem Invokes.of_executeStep {id : Int64} {sent : ExecuteStepRequest} {step : Step}
    {invocations : List Invocation} (hstep : steps.get? sent.parsedStepText = some step)
    (h : Invokes hooks steps executor ⟨id, .executeStep, .executeStep sent⟩ invocations) :
    ∃ accesses outcome grabbed, (step.body sent.parameters).Makes accesses outcome ∧
      executor.Grabs outcome.fails grabbed ∧
      invocations = ⟨.stepCalled step.text sent.parameters, accesses⟩ :: grabbed := by
  cases h with
  | step hfound hmakes hgrabs =>
    rw [hstep] at hfound
    cases hfound
    exact ⟨_, _, _, hmakes, hgrabs, rfl⟩
  | idle hidle =>
    cases hidle with
    | unknown sent hpayload hnone =>
      cases hpayload
      rw [hstep] at hnone
      cases hnone
    | names htype | validate htype | kill htype => cases htype
  | starts hstarts => cases hstarts.1
  | refused hrefusal => cases hrefusal

end Message

namespace Dispatcher

/-- A request that was dispatched, and what came of it. -/
structure Turn where
  request : Message
  before : World
  outcome : Outcome (Except ProtocolError Message)
  after : World

/-- The turns of requests that are dispatched one after another. -/
def turns (dispatcher : Dispatcher) : List Message → World → List Turn
  | [], _ => []
  | request :: requests, world =>
    let (outcome, after) := dispatcher.dispatch request world
    ⟨request, world, outcome, after⟩ :: dispatcher.turns requests after

theorem turns_cons (dispatcher : Dispatcher) (request : Message) (requests : List Message)
    (world : World) :
    let outcome := dispatcher.dispatch request world
    dispatcher.turns (request :: requests) world =
      ⟨request, world, outcome.1, outcome.2⟩ :: dispatcher.turns requests outcome.2 := rfl

/-- The world after the requests were dispatched in turn. -/
def dispatchAll (dispatcher : Dispatcher) (requests : List Message) (world : World) : World :=
  requests.foldl (fun world request => (dispatcher.dispatch request world).2) world

variable (hooks : HookRegistry) (steps : StepRegistry) (executor : Executor)

/-- What a request did to the stores is the given history. -/
structure Turn.Does (turn : Turn) (history : List Access) : Prop where
  undergoes : turn.before.stores.Undergoes history turn.after.stores
  invokes : ∃ invocations, turn.request.Invokes hooks steps executor invocations ∧
    turn.after.trace = turn.before.trace ++ invocations.flatMap Invocation.events ∧
    history = turn.request.clearing turn.before.stores ++ invocations.flatMap (·.accesses)
  starts : ∀ scope, turn.request.Starts scope → turn.after.stores.of scope = .empty ∧
    ∀ other, other ≠ scope → turn.after.stores.of other = turn.before.stores.of other
  idle : turn.request.Idle steps → turn.after.stores = turn.before.stores
  error : ∀ e, turn.outcome = .done (.error e) → turn.after.stores = turn.before.stores

variable {hooks steps executor} {request : Message}

/-- A request that starts no scope does what the bodies do that it has called. -/
theorem exists_invokes_of_not_starts (hstarts : ∀ scope, ¬ request.Starts scope) (world : World) :
    ∃ invocations, request.Invokes hooks steps executor invocations ∧
      world.Leads invocations ((standard hooks steps executor).dispatch request world).2 := by
  cases hrefusal : request.refusal? with
  | some e =>
    rw [dispatch_of_refusal? hrefusal]
    exact ⟨[], .refused hrefusal, .nil world⟩
  | none =>
    obtain ⟨processor, hprocessor, hserves, hdispatch⟩ :=
      exists_serves_of_not_refused hooks steps executor hrefusal
    rw [hdispatch]
    cases hserves with
    | hooks event registry found id info =>
      cases hprocessor
      rw [Processor.process_hooks, Processor.status_snd]
      obtain ⟨failed, invocations, grabbed, hcalls, hgrabs, hleads⟩ :=
        executor.exists_calls_of_executeHooks world (hooks.get event.category) (info.getD .empty)
      exact ⟨_, .hooks (LifecycleEvent.mem_moments_iff.mpr rfl) hcalls hgrabs, hleads⟩
    | executeStep registry found id sent =>
      cases hprocessor
      have hprocess : (Processor.executeStep steps executor).process
          ⟨id, .executeStep, .executeStep sent⟩ world =
            Processor.status id (executor.runStep steps sent world) := rfl
      rw [hprocess, Processor.status_snd, Executor.runStep]
      cases hstep : steps.get? sent.parsedStepText with
      | none => exact ⟨[], .idle (.unknown sent rfl hstep), .nil world⟩
      | some step =>
        obtain ⟨accesses, outcome, grabbed, hmakes, hgrabs, hleads⟩ :=
          executor.exists_makes_of_executeStep world step sent.parameters
        exact ⟨_, .step hstep hmakes hgrabs, hleads⟩
    | storeInit scope id => exact absurd ⟨rfl, rfl⟩ (hstarts scope)
    | validate registry id sent => exact ⟨[], .idle (.validate rfl), .nil world⟩
    | names registry id => exact ⟨[], .idle (.names rfl), .nil world⟩
    | kill id => exact ⟨[], .idle (.kill rfl), .nil world⟩

theorem dispatch_of_starts {scope : Scope} (h : request.Starts scope) (world : World) :
    ((standard hooks steps executor).dispatch request world).2 =
      { world with stores := world.stores.apply scope .clear } := by
  obtain ⟨processor, hprocessor, hserves, hdispatch⟩ :=
    exists_serves_of_not_refused hooks steps executor h.refusal?
  rw [h.1] at hprocessor
  cases hprocessor
  cases hserves with
  | storeInit scope id => rw [hdispatch, Processor.process_storeInit]

/-- A request that starts a scope empties its store, and that is all. -/
theorem does_of_starts {scope : Scope} (h : request.Starts scope) (world : World) :
    let outcome := (standard hooks steps executor).dispatch request world
    Turn.Does hooks steps executor ⟨request, world, outcome.1, outcome.2⟩
      (request.clearing world.stores) := by
  intro outcome
  have hafter : outcome.2 = { world with stores := world.stores.apply scope .clear } :=
    dispatch_of_starts h world
  have hclearing := Message.clearing_of_starts h world.stores
  refine ⟨?_, ⟨[], .starts h, ?_, (List.append_nil _).symm⟩, ?_,
    fun hidle => absurd hidle h.not_idle,
    fun e he => congrArg World.stores (refusal?_of_dispatch (Prod.ext he rfl)).2⟩
  · rw [hclearing, hafter]
    exact .cons (.nil _)
  · rw [hafter]
    exact (List.append_nil _).symm
  · intro other hother
    obtain rfl := h.eq hother
    rw [hafter]
    exact ⟨Stores.of_apply_self .., fun _ hne => Stores.of_apply_of_ne _ _ hne⟩

variable (hooks steps executor) in
/-- One request does to the stores what its bodies do, or empties the store of its scope. -/
theorem exists_does (request : Message) (world : World) :
    let outcome := (standard hooks steps executor).dispatch request world
    ∃ history, Turn.Does hooks steps executor ⟨request, world, outcome.1, outcome.2⟩ history := by
  intro outcome
  by_cases hstarts : ∃ scope, request.Starts scope
  · obtain ⟨scope, hscope⟩ := hstarts
    exact ⟨_, does_of_starts hscope world⟩
  · have hnone : ∀ scope, ¬ request.Starts scope := fun scope h => hstarts ⟨scope, h⟩
    obtain ⟨invocations, hinvokes, hleads⟩ := exists_invokes_of_not_starts hnone world
    refine ⟨invocations.flatMap (·.accesses), hleads.stores,
      ⟨invocations, hinvokes, hleads.trace, ?_⟩, fun scope h => absurd h (hnone scope), ?_,
      fun e he => congrArg World.stores (refusal?_of_dispatch (Prod.ext he rfl)).2⟩
    · rw [Message.clearing_of_not_starts hnone]
      rfl
    · intro hidle
      have hstores := hleads.stores
      rw [hinvokes.eq_nil_of_idle hidle] at hstores
      exact hstores.eq_of_nil

variable (hooks steps executor) in
/-- The histories of requests in turn make one history. -/
theorem exists_histories (requests : List Message) (world : World) :
    let dispatcher := standard hooks steps executor
    ∃ histories, List.Forall₂ (Turn.Does hooks steps executor) (dispatcher.turns requests world)
        histories ∧
      ∀ n, world.stores.Undergoes (histories.take n).flatten
        (dispatcher.dispatchAll (requests.take n) world).stores := by
  intro dispatcher
  induction requests generalizing world with
  | nil => exact ⟨[], .nil, fun n => by simpa using .nil world.stores⟩
  | cons request requests ih =>
    obtain ⟨history, hdoes⟩ := exists_does hooks steps executor request world
    obtain ⟨histories, hall, hreplay⟩ := ih (dispatcher.dispatch request world).2
    refine ⟨history :: histories, .cons hdoes hall, ?_⟩
    intro n
    cases n with
    | zero => exact .nil world.stores
    | succ n => exact hdoes.undergoes.append (hreplay n)

section

variable (dispatcher : Dispatcher)

/-- The world is one that dispatching the requests in the first of the frames leads to. -/
def Reaches (frames : List Bytes) (world after : World) : Prop :=
  ∃ requests, List.Forall₂ (fun frame request => Message.decode frame = .ok request)
      (frames.take requests.length) requests ∧
    after = dispatcher.dispatchAll requests world

variable {dispatcher} {frame : Bytes} {frames : List Bytes} {world after : World}

theorem Reaches.refl (frames : List Bytes) (world : World) :
    dispatcher.Reaches frames world world := ⟨[], .nil, rfl⟩

theorem Reaches.cons (hd : Message.decode frame = .ok request)
    (h : dispatcher.Reaches frames (dispatcher.dispatch request world).2 after) :
    dispatcher.Reaches (frame :: frames) world after := by
  obtain ⟨requests, hrequests, hafter⟩ := h
  exact ⟨request :: requests, .cons hd hrequests, hafter⟩

/-- Every world between two requests of a session is reached, and the last is. -/
theorem reaches_converse (dispatcher : Dispatcher) (exit : Except ProtocolError LoopExit)
    (frames : List Bytes) (world : World) :
    dispatcher.Reaches frames world (dispatcher.converse exit frames world).world ∧
      ∀ exchange ∈ (dispatcher.converse exit frames world).exchanges,
        dispatcher.Reaches frames world exchange.after := by
  fun_induction dispatcher.converse exit frames world with
  | case1 world => exact ⟨.refl _ _, by simp⟩
  | case2 frame frames world e hd => exact ⟨.refl _ _, by simp⟩
  | case3 frame frames world request hd reason after hp =>
    exact ⟨.cons hd (by rw [hp]; exact .refl _ _), by simp⟩
  | case4 frame frames world request hd e after hp =>
    exact ⟨.cons hd (by rw [hp]; exact .refl _ _), by simp⟩
  | case5 frame frames world request hd response after hp ih =>
    have hthen {later : World} (h : dispatcher.Reaches frames after later) :
        dispatcher.Reaches (frame :: frames) world later := .cons hd (by rw [hp]; exact h)
    by_cases hkill : request.type = .killProcess
    · rw [if_pos hkill]
      refine ⟨hthen (.refl _ _), ?_⟩
      intro exchange hexchange
      obtain rfl := List.mem_singleton.mp hexchange
      exact hthen (.refl _ _)
    · rw [if_neg hkill]
      refine ⟨hthen ih.1, ?_⟩
      intro exchange hexchange
      rcases List.mem_cons.mp hexchange with rfl | hrest
      · exact hthen (.refl _ _)
      · exact hthen (ih.2 exchange hrest)

/-- However the sink behaves, a run ends in a world that dispatching its requests leads to. -/
theorem reaches_run (dispatcher : Dispatcher) (source : Source) (sink : Sink) (world : World) :
    dispatcher.Reaches (Frame.cutAll source.stream.bytes).1 world
      (dispatcher.run (.ofParts source sink) world).world := by
  obtain ⟨hlast, hexchanges⟩ := dispatcher.reaches_converse
    ((Frame.cutAll source.stream.bytes).2.exit source.stream.failure)
    (Frame.cutAll source.stream.bytes).1 world
  obtain ⟨-, hworld, -⟩ := dispatcher.run_eq_deliver source sink world
  rw [hworld]
  rcases (dispatcher.session source.stream world).deliver_cases sink with
    ⟨later, -, hdeliver⟩ | ⟨answered, broken, part, ending, later, hbreaks, hdeliver⟩
  · rw [hdeliver]
    exact hlast
  -- The answer could not be sent, but what the request did to the world stays.
  · rw [hdeliver]
    obtain ⟨unanswered, hsplit⟩ := hbreaks.splits
    have hbroken : broken ∈ (dispatcher.session source.stream world).exchanges := by
      rw [hsplit]
      simp
    exact hexchanges broken hbroken

end

variable (hooks steps executor) in
/-- **The stores are a replay, over plain maps, of what the called bodies did to them,** with the
store of a scope emptied when it starts. -/
theorem dispatchAll_replays (requests : List Message) (world : World) :
    let dispatcher := standard hooks steps executor
    let contents := world.stores.contents
    (∃ histories, List.Forall₂ (Turn.Does hooks steps executor) (dispatcher.turns requests world)
        histories ∧
      (∀ n, (dispatcher.dispatchAll (requests.take n) world).stores.contents =
        contents.replay (histories.take n).flatten) ∧
      (∀ earlier access later key, histories.flatten = earlier ++ access :: later →
        access.lookedUp? = some key →
        access.reply.value = contents.replay earlier access.scope key) ∧
      ∀ scope key left write access earlier between later,
        histories.flatten = earlier ++ write :: (between ++ access :: later) →
        write.Leaves scope key left → (∀ access ∈ between, ¬ access.Overwrites scope key) →
        access.scope = scope → access.lookedUp? = some key → access.reply.value = left) ∧
    ∀ source sink, dispatcher.Reaches (Frame.cutAll source.stream.bytes).1 world
      (dispatcher.run (.ofParts source sink) world).world := by
  intro dispatcher contents
  obtain ⟨histories, hdoes, hundergoes⟩ := exists_histories hooks steps executor requests world
  have hall := hundergoes histories.length
  rw [List.take_length] at hall
  refine ⟨⟨histories, hdoes, fun n => (hundergoes n).contents_eq, ?_, ?_⟩, fun source sink =>
    dispatcher.reaches_run source sink world⟩
  · intro earlier access later key hsplit hkey
    rw [hsplit] at hall
    exact hall.value_of_lookedUp hkey
  · intro scope key left write access earlier between later hsplit hwrite hkept hscope hkey
    rw [hsplit] at hall
    exact hall.value_of_leaves hwrite hkept hscope hkey

/-- What a hook has stored is gone once a step has removed it. -/
theorem dispatchAll_replays_of_removal :
    let opening : Hook := ⟨"opening", fun _ =>
      .store .spec (.put "open" (.bool true)) fun _ => .done (.ok ())⟩
    let closing : Step := .ofText "close" fun _ =>
      .store .spec (.remove "open") fun _ => .done (.ok ())
    let hooks := HookRegistry.ofList [(.beforeSpec, opening)]
    let requests : List Message := [⟨1, .lifecycle .specStarting, .lifecycle .specStarting none⟩,
      ⟨2, .executeStep, .executeStep ⟨"close", "close", [], false⟩⟩]
    let dispatcher := standard hooks (.ofList [closing]) ⟨none⟩
    (dispatcher.dispatchAll (requests.take 1) .fresh).stores.contents .spec "open" =
        some (.bool true) ∧
      (dispatcher.dispatchAll (requests.take 2) .fresh).stores.contents .spec "open" = none := by
  intro opening closing hooks requests dispatcher
  let does := Turn.Does hooks (.ofList [closing]) ⟨none⟩
  have hopens {id before outcome after history}
      (h : does ⟨⟨id, .lifecycle .specStarting, .lifecycle .specStarting none⟩, before, outcome,
        after⟩ history) :
      ∃ reply, history = [⟨.spec, .put "open" (.bool true), reply⟩] := by
    have hbatch : (hooks.get .beforeSpec).hooks = [opening] := rfl
    obtain ⟨invocations, hinvokes, -, rfl⟩ := h.invokes
    obtain ⟨category, failed, calls, grabbed, hmoment, hcalls, hgrabs, rfl⟩ := hinvokes.of_lifecycle
    obtain rfl : category = .beforeSpec := LifecycleEvent.mem_moments_iff.mp hmoment
    rw [hbatch] at hcalls
    cases hcalls with
    | stop hmakes hfails =>
      rcases hmakes with _ | _ | ⟨⟨⟩⟩
      cases hfails
    | next hmakes hpasses hrest =>
      rcases hmakes with _ | _ | ⟨⟨⟩⟩
      cases hrest
      cases hgrabs
      exact ⟨_, rfl⟩
  have hcloses {id before outcome after history}
      (h : does ⟨⟨id, .executeStep, .executeStep ⟨"close", "close", [], false⟩⟩, before, outcome,
        after⟩ history) :
      ∃ reply, history = [⟨.spec, .remove "open", reply⟩] := by
    have hstep : (StepRegistry.ofList [closing]).get? "close" = some closing := rfl
    obtain ⟨invocations, hinvokes, -, rfl⟩ := h.invokes
    obtain ⟨accesses, ended, grabbed, hmakes, hgrabs, rfl⟩ := hinvokes.of_executeStep hstep
    rcases hmakes with _ | _ | ⟨⟨⟩⟩
    cases hgrabs
    exact ⟨_, rfl⟩
  obtain ⟨⟨histories, hdoes, hreplays, -, -⟩, -⟩ :=
    dispatchAll_replays hooks (.ofList [closing]) ⟨none⟩ requests .fresh
  rw [turns_cons, turns_cons] at hdoes
  rcases hdoes with _ | ⟨hfirst, _ | ⟨hsecond, _ | _⟩⟩
  obtain ⟨put, rfl⟩ := hopens hfirst
  obtain ⟨removal, rfl⟩ := hcloses hsecond
  rw [hreplays, hreplays]
  exact ⟨rfl, rfl⟩

end Dispatcher

end StepRunner
