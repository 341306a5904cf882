import Mathlib

/-!
# Keyed stores

Two shapes of index that a ledger keeps in hash maps: a map from keys to optional values, and a
map from keys to lists used as lists, appended to and popped at the back and changed in place
by position. An absent key and a key whose list is empty are the same store here.

The lemmas are the ones an undo argument needs, each first as a pointwise characterisation and
then as an equation of stores: values set and cleared again, an entry pushed and popped again,
entries changed and changed back again.

The same lists serve as multimaps: the values under a key in insertion order, as `std::multimap`
keeps the values of equal keys. Inserting is `push`; erasing the first match of a value in the
range of a key is `eraseFirst`, which undoes a `push` exactly when the value was not there before,
and up to the order of the key's values otherwise.
-/

set_option autoImplicit false

namespace KeyedStore

variable {κ α : Type} [DecidableEq κ]

/-! ## Maps to optional values -/

def setAll (store : κ → Option α) (keys : List κ) (value : Option α) : κ → Option α :=
  keys.foldl (fun store key => Function.update store key value) store

@[simp] theorem setAll_nil (store : κ → Option α) (value : Option α) :
    setAll store [] value = store := rfl

theorem setAll_cons (store : κ → Option α) (key : κ) (keys : List κ) (value : Option α) :
    setAll store (key :: keys) value = setAll (Function.update store key value) keys value := rfl

theorem setAll_apply (store : κ → Option α) (keys : List κ) (value : Option α) (key : κ) :
    setAll store keys value key = if key ∈ keys then value else store key := by
  induction keys generalizing store with
  | nil => simp
  | cons first rest inductionHypothesis =>
      rw [setAll_cons, inductionHypothesis]
      by_cases inRest : key ∈ rest
      · simp [inRest]
      · by_cases same : key = first
        · subst same
          simp
        · simp [inRest, same]

theorem update_setAll_cons {store : κ → Option α} {key : κ} {keys : List κ} (value : Option α)
    (absent : store key = none) (unique : key ∉ keys) :
    Function.update (setAll store (key :: keys) value) key none = setAll store keys value := by
  funext other
  by_cases same : other = key
  · subst same
    simp [setAll_apply, unique, absent]
  · simp [setAll_apply, same]

/-! ## Stacks per key -/

def push (lists : κ → List α) (key : κ) (value : α) : κ → List α :=
  Function.update lists key (lists key ++ [value])

def pop (lists : κ → List α) (key : κ) : κ → List α :=
  Function.update lists key (lists key).dropLast

@[simp] theorem push_apply_self (lists : κ → List α) (key : κ) (value : α) :
    push lists key value key = lists key ++ [value] := by
  simp [push]

@[simp] theorem pop_push (lists : κ → List α) (key : κ) (value : α) :
    pop (push lists key value) key = lists := by
  funext other
  by_cases same : other = key
  · subst same
    simp [pop]
  · simp [pop, push, Function.update_of_ne same]

def modify (lists : κ → List α) (key : κ) (index : Nat) (change : α → α) : κ → List α :=
  Function.update lists key ((lists key).modify index change)

def modifyAll (lists : κ → List α) (positions : List (κ × Nat)) (change : α → α) : κ → List α :=
  positions.foldl (fun lists position => modify lists position.1 position.2 change) lists

theorem modifyAll_cons (lists : κ → List α) (position : κ × Nat) (positions : List (κ × Nat))
    (change : α → α) :
    modifyAll lists (position :: positions) change =
      modifyAll (modify lists position.1 position.2 change) positions change := rfl

theorem getElem?_modify (lists : κ → List α) (key : κ) (index : Nat) (change : α → α)
    (other : κ) (position : Nat) :
    (modify lists key index change other)[position]? =
      if other = key ∧ position = index then (lists other)[position]?.map change
      else (lists other)[position]? := by
  by_cases same : other = key
  · subst same
    by_cases at_index : position = index
    · subst at_index
      simp [modify]
    · simp [modify, at_index, Ne.symm at_index]
  · simp [modify, same]

theorem getElem?_modifyAll {change : α → α} (idempotent : ∀ entry, change (change entry) = change entry)
    (lists : κ → List α) (positions : List (κ × Nat)) (key : κ) (index : Nat) :
    (modifyAll lists positions change key)[index]? =
      if (key, index) ∈ positions then (lists key)[index]?.map change
      else (lists key)[index]? := by
  induction positions generalizing lists with
  | nil => simp [modifyAll]
  | cons first rest inductionHypothesis =>
      rw [modifyAll_cons, inductionHypothesis, getElem?_modify]
      obtain ⟨firstKey, firstIndex⟩ := first
      by_cases atFirst : key = firstKey ∧ index = firstIndex
      · obtain ⟨rfl, rfl⟩ := atFirst
        cases (lists key)[index]? <;> simp [idempotent]
      · have notFirst : (key, index) ≠ (firstKey, firstIndex) := by
          rintro ⟨⟩
          exact atFirst ⟨rfl, rfl⟩
        simp [atFirst, notFirst]

theorem modifyAll_modifyAll {change undo : α → α}
    (idempotentChange : ∀ entry, change (change entry) = change entry)
    (idempotentUndo : ∀ entry, undo (undo entry) = undo entry)
    {lists : κ → List α} {positions : List (κ × Nat)}
    (restores : ∀ position ∈ positions, ∀ entry, (lists position.1)[position.2]? = some entry →
      undo (change entry) = entry) :
    modifyAll (modifyAll lists positions change) positions undo = lists := by
  funext key
  apply List.ext_getElem?
  intro index
  rw [getElem?_modifyAll idempotentUndo, getElem?_modifyAll idempotentChange]
  by_cases listed : (key, index) ∈ positions
  · simp only [listed, if_true, Option.map_map]
    cases found : (lists key)[index]? with
    | none => rfl
    | some entry => simp [restores (key, index) listed entry found]
  · simp [listed]

theorem isSome_getElem?_modify (lists : κ → List α) (key : κ) (index : Nat) (change : α → α)
    (other : κ) (position : Nat) :
    (modify lists key index change other)[position]?.isSome = (lists other)[position]?.isSome := by
  rw [getElem?_modify]
  split <;> simp

/-! ## Multimaps -/

def pushAll (lists : κ → List α) (keys : List κ) (value : α) : κ → List α :=
  keys.foldl (fun lists key => push lists key value) lists

theorem pushAll_apply (lists : κ → List α) (keys : List κ) (value : α) (key : κ) :
    pushAll lists keys value key = lists key ++ List.replicate (keys.count key) value := by
  induction keys generalizing lists with
  | nil => simp [pushAll]
  | cons first rest inductionHypothesis =>
      change pushAll (push lists first value) rest value key = _
      rw [inductionHypothesis]
      by_cases same : key = first
      · subst same
        simp only [push_apply_self, List.count_cons_self, List.append_assoc]
        rw [List.singleton_append, ← List.replicate_succ]
      · simp [push, same, Ne.symm same]

section Multimap

variable [DecidableEq α]

def eraseFirst (lists : κ → List α) (key : κ) (value : α) : κ → List α :=
  Function.update lists key ((lists key).erase value)

theorem count_eraseFirst (lists : κ → List α) (key : κ) (value : α) (other : κ) :
    (eraseFirst lists key value other).count value =
      (lists other).count value - if other = key then 1 else 0 := by
  by_cases same : other = key
  · subst same
    simp [eraseFirst]
  · simp [eraseFirst, same]

theorem eraseFirst_push_of_not_mem {lists : κ → List α} {key : κ} {value : α}
    (absent : value ∉ lists key) : eraseFirst (push lists key value) key value = lists := by
  funext other
  by_cases same : other = key
  · subst same
    simp [eraseFirst, List.erase_append_right _ absent]
  · simp [eraseFirst, push, same]

theorem eraseFirst_push_perm (lists : κ → List α) (key : κ) (value : α) (other : κ) :
    (eraseFirst (push lists key value) key value other).Perm (lists other) := by
  by_cases same : other = key
  · subst same
    rw [List.perm_iff_count]
    intro counted
    simp only [eraseFirst, push_apply_self, Function.update_self, List.count_erase,
      List.count_append]
    by_cases equal : value = counted
    · subst equal
      simp
    · simp [equal]
  · simp [eraseFirst, push, same]

/-- The search of `keys` in turn for a key whose values hold `value`: the first such key loses
one entry and the search stops there; `none` when no key holds it. -/
def eraseFirstAmong (lists : κ → List α) (value : α) : List κ → Option (κ → List α)
  | [] => none
  | key :: rest =>
      if value ∈ lists key then some (eraseFirst lists key value)
      else eraseFirstAmong lists value rest

theorem eraseFirstAmong_pushAll (lists : κ → List α) (key : κ) (keys : List κ) (value : α) :
    eraseFirstAmong (pushAll lists (key :: keys) value) value (key :: keys) =
      some (eraseFirst (pushAll lists (key :: keys) value) key value) := by
  have pushed : value ∈ pushAll lists (key :: keys) value key := by
    simp [pushAll_apply]
  simp [eraseFirstAmong, pushed]

end Multimap

end KeyedStore
