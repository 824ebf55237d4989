import StepRunner.Processor

namespace StepRunner

/-- Anything that answers a request: the processors here, or one of a project's own. -/
abbrev Handler := Message → World → Outcome (Except ProtocolError Message) × World

structure Dispatcher where
  handler? : MessageType → Option Handler

namespace Dispatcher

def empty : Dispatcher := ⟨fun _ => none⟩

/-- A later handler for a type replaces an earlier one. -/
def register (dispatcher : Dispatcher) (type : MessageType) (handler : Handler) : Dispatcher :=
  ⟨fun t => if t = type then some handler else dispatcher.handler? t⟩

def ofList (processors : List (MessageType × Processor)) : Dispatcher :=
  processors.foldl (fun dispatcher (type, processor) => dispatcher.register type processor.process)
    empty

/-- Every request, answered from the given hooks and steps. -/
def standard (hooks : HookRegistry) (steps : StepRegistry) (executor : Executor) : Dispatcher :=
  let processors := LifecycleEvent.all.map (Processor.hooks · hooks executor) ++
    [.storeInit .suite, .storeInit .spec, .storeInit .scenario, .executeStep steps executor,
      .validate steps, .names steps, .kill]
  ofList (processors.map fun processor => (processor.type, processor))

def handles (dispatcher : Dispatcher) (type : MessageType) : Bool :=
  (dispatcher.handler? type).isSome

def dispatch (dispatcher : Dispatcher) (request : Message) (world : World) :
    Outcome (Except ProtocolError Message) × World :=
  match dispatcher.handler? request.type with
  | none => (.done (.error (.unsupported request.type)), world)
  | some handler => handler request world

end Dispatcher

end StepRunner
