import StepRunner.Store
import StepRunner.Message.Context
import StepRunner.Bytes

namespace StepRunner

/-- What a panic carries. -/
inductive Panic where
  | text (message : String)
  | other
  deriving DecidableEq, Repr

def Panic.message : Panic → String
  | text message => message
  | other => "panic with non-string payload"

inductive Outcome (α : Type) where
  | done (value : α)
  | panicked (reason : Panic)

/-- What was called, and what it did. -/
inductive Event where
  | hookCalled (name : String) (info : ExecutionInfo)
  | stepCalled (text : String) (arguments : List String)
  | grabberCalled
  | stored (scope : Scope) (op : StoreOp)
  | noted (text : Json)

structure World where
  stores : Stores
  /-- The milliseconds that the clock shows the first time it is read, the second, and so on. -/
  clock : Nat → Nat
  readings : Nat
  /-- The latest first. -/
  events : List Event

namespace World

def journal (world : World) : List Event := world.events.reverse

def record (world : World) (event : Event) : World :=
  { world with events := event :: world.events }

theorem journal_record (world : World) (event : Event) :
    (world.record event).journal = world.journal ++ [event] := by
  simp [journal, record]

def now (world : World) : Nat × World :=
  (world.clock world.readings, { world with readings := world.readings + 1 })

def perform (world : World) (scope : Scope) (op : StoreOp) : StoreReply × World :=
  (world.stores.reply scope op,
    { world with stores := world.stores.apply scope op }.record (.stored scope op))

/-- No values stored, nothing done, and a clock that stands still. -/
def fresh : World := ⟨.empty, fun _ => 0, 0, []⟩

end World

/-- What hooks, steps and grabbers do: a finite tree that ends by returning or by a panic. -/
inductive Action (α : Type) where
  | done (value : α)
  | panic (reason : Panic)
  | store (scope : Scope) (op : StoreOp) (next : StoreReply → Action α)
  | now (next : Nat → Action α)
  | note (text : Json) (next : Action α)

def Action.run {α : Type} : Action α → World → Outcome α × World
  | .done value, world => (.done value, world)
  | .panic reason, world => (.panicked reason, world)
  | .store scope op next, world =>
    let (reply, world) := world.perform scope op
    (next reply).run world
  | .now next, world =>
    let (reading, world) := world.now
    (next reading).run world
  | .note text next, world => next.run (world.record (.noted text))

end StepRunner
