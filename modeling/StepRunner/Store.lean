import StepRunner.Json.Value
import StepRunner.Scope

namespace StepRunner

structure Store where
  entries : List (String × Json)
  nodup : (entries.map Prod.fst).Nodup

namespace Store

def empty : Store := ⟨[], List.nodup_nil⟩

def get? (store : Store) (key : String) : Option Json := store.entries.lookup key

def erase (store : Store) (key : String) : Store :=
  ⟨store.entries.filter fun entry => !(key == entry.1),
    store.nodup.sublist (List.filter_sublist.map Prod.fst)⟩

def put (store : Store) (key : String) (value : Json) : Store :=
  ⟨(key, value) :: (store.erase key).entries,
    List.nodup_cons.2 ⟨by simp [erase], (store.erase key).nodup⟩⟩

def size (store : Store) : Nat := store.entries.length

theorem get?_put_self (store : Store) (key : String) (value : Json) :
    (store.put key value).get? key = some value := by
  simp [put, get?]

theorem get?_erase_self (store : Store) (key : String) : (store.erase key).get? key = none := by
  simp only [erase, get?, List.lookup_eq_none_iff, List.mem_filter]
  intro entry h
  simpa using h.2

theorem get?_erase_of_ne (store : Store) {key other : String} (h : other ≠ key) :
    (store.erase key).get? other = store.get? other := by
  simp only [erase, get?]
  generalize store.entries = entries
  induction entries with
  | nil => rfl
  | cons entry entries ih =>
    obtain ⟨k, v⟩ := entry
    by_cases hk : key = k
    · have hb : (other == k) = false := by simpa [← hk] using h
      simp only [hk, List.filter_cons, List.lookup_cons, hb, beq_self_eq_true]
      simpa [hk] using ih
    · simp only [List.filter_cons, beq_eq_false_iff_ne.mpr hk, Bool.not_false, if_true,
        List.lookup_cons, ih]

theorem get?_put_of_ne (store : Store) {key other : String} (value : Json) (h : other ≠ key) :
    (store.put key value).get? other = store.get? other := by
  have hb : (other == key) = false := by simpa using h
  rw [← get?_erase_of_ne store h]
  simp [put, get?, List.lookup_cons, hb]

end Store

/-- What may be done to a store. -/
inductive StoreOp where
  | put (key : String) (value : Json)
  | get (key : String)
  | remove (key : String)
  | clear
  | size

/-- What an operation gives back: the value it found, and the size of the store after it. -/
structure StoreReply where
  value : Option Json
  size : Nat

namespace Store

def apply (store : Store) : StoreOp → Store
  | .put key value => store.put key value
  | .remove key => store.erase key
  | .clear => empty
  | .get _ | .size => store

def found (store : Store) : StoreOp → Option Json
  | .get key | .remove key => store.get? key
  | _ => none

end Store

/-- One store for each scope, shared between hooks and steps. -/
structure Stores where
  suite : Store
  spec : Store
  scenario : Store

namespace Stores

def empty : Stores := ⟨.empty, .empty, .empty⟩

def of (stores : Stores) : Scope → Store
  | .suite => stores.suite
  | .spec => stores.spec
  | .scenario => stores.scenario

def set (stores : Stores) (scope : Scope) (store : Store) : Stores :=
  match scope with
  | .suite => { stores with suite := store }
  | .spec => { stores with spec := store }
  | .scenario => { stores with scenario := store }

def apply (stores : Stores) (scope : Scope) (op : StoreOp) : Stores :=
  stores.set scope ((stores.of scope).apply op)

def reply (stores : Stores) (scope : Scope) (op : StoreOp) : StoreReply :=
  ⟨(stores.of scope).found op, ((stores.of scope).apply op).size⟩

@[simp] theorem of_set_self (stores : Stores) (scope : Scope) (store : Store) :
    (stores.set scope store).of scope = store := by
  cases scope <;> rfl

@[simp] theorem of_set_of_ne (stores : Stores) {scope other : Scope} (store : Store)
    (h : other ≠ scope) : (stores.set scope store).of other = stores.of other := by
  cases scope <;> cases other <;> first | rfl | exact absurd rfl h

end Stores

end StepRunner
