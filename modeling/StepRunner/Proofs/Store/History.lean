import StepRunner.World

namespace StepRunner

/-- One use of a store, and what came back. -/
structure Access where
  scope : Scope
  op : StoreOp
  reply : StoreReply

namespace Access

/-- What the access leaves under a key that it writes: a value, or nothing. -/
inductive Leaves (scope : Scope) : Access → (key : String) → Option Json → Prop
  | put (key : String) (value : Json) (reply : StoreReply) :
      Leaves scope ⟨scope, .put key value, reply⟩ key (some value)
  | remove (key : String) (reply : StoreReply) : Leaves scope ⟨scope, .remove key, reply⟩ key none
  | clear (key : String) (reply : StoreReply) : Leaves scope ⟨scope, .clear, reply⟩ key none

def Overwrites (access : Access) (scope : Scope) (key : String) : Prop :=
  ∃ left, access.Leaves scope key left

/-- The key whose value is in the reply. -/
def lookedUp? (access : Access) : Option String :=
  match access.op with
  | .get key | .remove key => some key
  | .put _ _ | .clear | .size => none

end Access

/-- What an operation leaves under a key where it found `found`. -/
def StoreOp.leave (op : StoreOp) (key : String) (found : Option Json) : Option Json :=
  match op with
  | .put written value => if key = written then some value else found
  | .remove removed => if key = removed then none else found
  | .clear => none
  | .get _ | .size => found

theorem Store.get?_apply (store : Store) (op : StoreOp) (key : String) :
    (store.apply op).get? key = op.leave key (store.get? key) := by
  cases op with
  | put written value =>
    by_cases hkey : key = written
    · rw [StoreOp.leave, if_pos hkey, hkey]
      exact get?_put_self ..
    · rw [StoreOp.leave, if_neg hkey]
      exact get?_put_of_ne _ _ hkey
  | remove removed =>
    by_cases hkey : key = removed
    · rw [StoreOp.leave, if_pos hkey, hkey]
      exact get?_erase_self ..
    · rw [StoreOp.leave, if_neg hkey]
      exact get?_erase_of_ne _ hkey
  | clear | get | size => rfl

/-- A plain map for each scope. -/
abbrev Contents := Scope → String → Option Json

namespace Contents

def next (contents : Contents) (access : Access) : Contents := fun scope key =>
  if scope = access.scope then access.op.leave key (contents scope key) else contents scope key

def replay (contents : Contents) (accesses : List Access) : Contents := accesses.foldl next contents

variable {access : Access} {scope : Scope} {key : String}

theorem next_of_leaves {left : Option Json} (contents : Contents)
    (h : access.Leaves scope key left) : contents.next access scope key = left := by
  cases h <;> simp [next, StoreOp.leave]

theorem next_of_not_overwrites (contents : Contents) (h : ¬ access.Overwrites scope key) :
    contents.next access scope key = contents scope key := by
  obtain ⟨written, op, reply⟩ := access
  by_cases hscope : scope = written
  · subst hscope
    cases op with
    | put k value =>
      have hkey : key ≠ k := by
        rintro rfl
        exact h ⟨_, .put key value reply⟩
      simp [next, StoreOp.leave, hkey]
    | remove k =>
      have hkey : key ≠ k := by
        rintro rfl
        exact h ⟨_, .remove key reply⟩
      simp [next, StoreOp.leave, hkey]
    | clear => exact absurd ⟨_, .clear key reply⟩ h
    | get | size => simp [next, StoreOp.leave]
  · exact if_neg hscope

theorem replay_of_not_overwrites {accesses : List Access} (contents : Contents)
    (h : ∀ access ∈ accesses, ¬ access.Overwrites scope key) :
    contents.replay accesses scope key = contents scope key := by
  induction accesses generalizing contents with
  | nil => rfl
  | cons access accesses ih =>
    obtain ⟨hfirst, hrest⟩ := List.forall_mem_cons.mp h
    exact (ih (contents.next access) hrest).trans (contents.next_of_not_overwrites hfirst)

end Contents

namespace Stores

def contents (stores : Stores) : Contents := fun scope key => (stores.of scope).get? key

/-- Accesses lead from some stores to others, each answered by the stores it finds. -/
inductive Undergoes : Stores → List Access → Stores → Prop
  | nil (stores : Stores) : Undergoes stores [] stores
  | cons {stores later : Stores} {scope : Scope} {op : StoreOp} {accesses : List Access}
      (h : Undergoes (stores.apply scope op) accesses later) :
      Undergoes stores (⟨scope, op, stores.reply scope op⟩ :: accesses) later

theorem of_apply_self (stores : Stores) (scope : Scope) (op : StoreOp) :
    (stores.apply scope op).of scope = (stores.of scope).apply op :=
  of_set_self ..

theorem of_apply_of_ne (stores : Stores) {scope other : Scope} (op : StoreOp) (h : other ≠ scope) :
    (stores.apply scope op).of other = stores.of other :=
  of_set_of_ne _ _ h

/-- The stores are the plain maps that they stand for. -/
theorem contents_apply (stores : Stores) (scope : Scope) (op : StoreOp) (reply : StoreReply) :
    (stores.apply scope op).contents = stores.contents.next ⟨scope, op, reply⟩ := by
  funext other key
  by_cases hscope : other = scope
  · subst hscope
    rw [contents, of_apply_self, Store.get?_apply]
    exact (if_pos rfl).symm
  · rw [contents, of_apply_of_ne _ _ hscope]
    exact (if_neg hscope).symm

namespace Undergoes

variable {before middle after : Stores} {first second accesses : List Access}

theorem append (h : before.Undergoes first middle) (h' : middle.Undergoes second after) :
    before.Undergoes (first ++ second) after := by
  induction h with
  | nil => exact h'
  | cons _ ih => exact .cons (ih h')

theorem exists_of_append (h : before.Undergoes (first ++ second) after) :
    ∃ middle, before.Undergoes first middle ∧ middle.Undergoes second after := by
  induction first generalizing before with
  | nil => exact ⟨before, .nil before, h⟩
  | cons access first ih =>
    cases h with
    | cons hrest =>
      obtain ⟨middle, hfirst, hsecond⟩ := ih hrest
      exact ⟨middle, .cons hfirst, hsecond⟩

theorem eq_of_nil (h : before.Undergoes [] after) : after = before := by
  cases h
  rfl

theorem contents_eq (h : before.Undergoes accesses after) :
    after.contents = before.contents.replay accesses := by
  induction h with
  | nil => rfl
  | @cons stores _ scope op _ _ ih =>
    rw [ih, stores.contents_apply scope op (stores.reply scope op)]
    rfl

variable {access : Access} {earlier between later : List Access} {key : String}

/-- What an access finds is what the accesses before it left. -/
theorem value_of_lookedUp (h : before.Undergoes (earlier ++ access :: later) after)
    (hkey : access.lookedUp? = some key) :
    access.reply.value = before.contents.replay earlier access.scope key := by
  obtain ⟨middle, hearlier, haccess⟩ := exists_of_append h
  rw [← hearlier.contents_eq]
  cases haccess with
  | @cons _ _ scope op _ _ =>
    cases op with
    | get | remove =>
      cases hkey
      rfl
    | put | clear | size => cases hkey

/-- **What was left under a key is what is found,** unless it was overwritten in between. -/
theorem value_of_leaves {write : Access} {scope : Scope} {left : Option Json}
    (h : before.Undergoes (earlier ++ write :: (between ++ access :: later)) after)
    (hwrite : write.Leaves scope key left)
    (hkept : ∀ access ∈ between, ¬ access.Overwrites scope key)
    (hscope : access.scope = scope) (hkey : access.lookedUp? = some key) :
    access.reply.value = left := by
  rw [← List.cons_append, ← List.append_assoc] at h
  rw [h.value_of_lookedUp hkey, hscope, Contents.replay, List.foldl_append, List.foldl_cons]
  exact (Contents.replay_of_not_overwrites _ hkept).trans (Contents.next_of_leaves _ hwrite)

end Undergoes

end Stores

/-- Given these replies in turn, the action makes these accesses and comes to this end. -/
inductive Action.Makes {α : Type} : Action α → List Access → Outcome α → Prop
  | done (value : α) : Makes (.done value) [] (.done value)
  | panic (reason : Panic) : Makes (.panic reason) [] (.panicked reason)
  | store {scope : Scope} {op : StoreOp} {next : StoreReply → Action α} {reply : StoreReply}
      {accesses : List Access} {outcome : Outcome α} (h : Makes (next reply) accesses outcome) :
      Makes (.store scope op next) (⟨scope, op, reply⟩ :: accesses) outcome
  | now {next : Nat → Action α} {reading : Nat} {accesses : List Access} {outcome : Outcome α}
      (h : Makes (next reading) accesses outcome) : Makes (.now next) accesses outcome
  | note {text : Json} {next : Action α} {accesses : List Access} {outcome : Outcome α}
      (h : Makes next accesses outcome) : Makes (.note text next) accesses outcome

/-- The access as the journal has it. -/
def Access.event (access : Access) : Event := .stored access.scope access.op

/-- A note in the journal, which is nothing that was called or done. -/
def Event.isNote : Event → Bool
  | noted _ => true
  | hookCalled _ _ | stepCalled _ _ | grabberCalled | stored _ _ => false

namespace World

/-- What was called and what was done to the stores, in order. -/
def trace (world : World) : List Event := world.journal.filter fun event => !event.isNote

theorem trace_record (world : World) {event : Event} (h : event.isNote = false) :
    (world.record event).trace = world.trace ++ [event] := by
  rw [trace, journal_record, List.filter_append, List.filter_cons_of_pos (by rw [h]; rfl)]
  rfl

theorem trace_record_noted (world : World) (text : Json) :
    (world.record (.noted text)).trace = world.trace := by
  rw [trace, journal_record, List.filter_append]
  exact List.append_nil _

end World

/-- Running an action changes the stores by the accesses it makes, and these are on record. -/
theorem Action.exists_makes {α : Type} (action : Action α) (world : World) :
    ∃ accesses, action.Makes accesses (action.run world).1 ∧
      world.stores.Undergoes accesses (action.run world).2.stores ∧
      (action.run world).2.trace = world.trace ++ accesses.map Access.event := by
  induction action generalizing world with
  | done value => exact ⟨[], .done value, .nil _, (List.append_nil _).symm⟩
  | panic reason => exact ⟨[], .panic reason, .nil _, (List.append_nil _).symm⟩
  | store scope op next ih =>
    obtain ⟨accesses, hmakes, hstores, htrace⟩ := ih _ (world.perform scope op).2
    refine ⟨_, .store hmakes, .cons hstores, htrace.trans ?_⟩
    have hperform : (world.perform scope op).2.trace = world.trace ++ [.stored scope op] :=
      World.trace_record _ rfl
    rw [hperform, List.append_assoc]
    rfl
  | now next ih =>
    obtain ⟨accesses, hmakes, hstores, htrace⟩ := ih _ world.now.2
    exact ⟨accesses, .now hmakes, hstores, htrace⟩
  | note text next ih =>
    obtain ⟨accesses, hmakes, hstores, htrace⟩ := ih (world.record (.noted text))
    refine ⟨accesses, .note hmakes, hstores, htrace.trans ?_⟩
    rw [World.trace_record_noted]

end StepRunner
