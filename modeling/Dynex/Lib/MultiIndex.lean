import Mathlib

/-!
# Containers with a unique key and an order by time

The shape of a `boost::multi_index_container` with an `ordered_unique` index on a key and an
`ordered_non_unique` index on a time. The container is the list of its elements in the order of
the time index; the key index only finds elements. A new element is linked after every element
whose time is not later (the insertion point of an `ordered_non_unique` index), `insert` does
nothing when the key is taken, `replace` keeps an element in its place when its neighbours still
bracket the new time and relinks it otherwise, and `trim` erases the earliest elements while
there are too many.

What a caller needs from these operations is how they change the set of elements: each leaves a
permutation of the new element and a sublist of the old ones.
-/

set_option autoImplicit false

namespace MultiIndex

variable {α κ τ : Type} [DecidableEq κ] [LT τ] [DecidableLT τ]

section Operations

variable (key : α → κ) (time : α → τ)

/-- The time index links `value` after every element whose time is not later. -/
def link (value : α) : List α → List α
  | [] => [value]
  | first :: rest =>
      if time value < time first then value :: first :: rest else first :: link value rest

def find (k : κ) (values : List α) : Option Nat :=
  values.findIdx? fun element => key element = k

def insert (value : α) (values : List α) : List α :=
  if values.any fun element => key element = key value then values else link time value values

/-- `replace(position, value)` for a value with the key of the element at `index`: the element
stays where it is when the time of the one before is not later and the time of the one after is
not earlier, and is relinked otherwise. -/
def replace (index : Nat) (value : α) (values : List α) : List α :=
  let before := values.take index
  let after := values.drop (index + 1)
  if (before.getLast?.all fun previous => !decide (time value < time previous)) &&
      (after.head?.all fun next => !decide (time next < time value)) then
    before ++ value :: after
  else link time value (before ++ after)

def trim (maxSize : Nat) : List α → List α
  | [] => []
  | first :: rest => if maxSize < rest.length + 1 then trim maxSize rest else first :: rest

end Operations

section Lemmas

variable {key : α → κ} {time : α → τ}

theorem link_perm (value : α) (values : List α) :
    (link time value values).Perm (value :: values) := by
  induction values with
  | nil => rfl
  | cons first rest ih =>
      rw [link]
      split
      · rfl
      · exact (ih.cons first).trans (List.Perm.swap value first rest)

theorem find_eq_some {k : κ} {values : List α} {index : Nat}
    (found : find key k values = some index) :
    ∃ bound : index < values.length, key (values.get ⟨index, bound⟩) = k := by
  obtain ⟨bound, holds, -⟩ := List.findIdx?_eq_some_iff_getElem.mp found
  exact ⟨bound, by simpa using holds⟩

theorem find_eq_none {k : κ} {values : List α} (absent : find key k values = none) :
    ∀ element ∈ values, key element ≠ k := by
  intro element member same
  have := List.findIdx?_eq_none_iff.mp absent element member
  simp [same] at this

theorem insert_of_fresh {value : α} {values : List α}
    (fresh : ∀ element ∈ values, key element ≠ key value) :
    insert key time value values = link time value values := by
  rw [insert, if_neg]
  simpa using fresh

theorem replace_perm (index : Nat) (value : α) (values : List α) :
    (replace time index value values).Perm (value :: values.eraseIdx index) := by
  rw [List.eraseIdx_eq_take_drop_succ]
  unfold replace
  dsimp only
  split
  · exact List.perm_middle
  · exact link_perm value _

omit [DecidableEq κ] in
theorem key_ne_of_mem_eraseIdx {values : List α} (unique : (values.map key).Nodup) {index : Nat}
    (bound : index < values.length) :
    ∀ element ∈ values.eraseIdx index, key element ≠ key (values.get ⟨index, bound⟩) := by
  intro element member same
  obtain ⟨other, otherBound, different, rfl⟩ := List.mem_eraseIdx_iff_getElem.mp member
  have keys : (values.map key).get ⟨other, by simpa using otherBound⟩ =
      (values.map key).get ⟨index, by simpa using bound⟩ := by
    simpa using same
  exact different (Fin.mk.inj_iff.mp (unique.get_inj_iff.mp keys))

theorem trim_sublist (maxSize : Nat) (values : List α) : (trim maxSize values).Sublist values := by
  induction values with
  | nil => exact List.Sublist.slnil
  | cons first rest ih =>
      rw [trim]
      split
      · exact ih.cons first
      · exact List.Sublist.refl _

theorem length_trim_le (maxSize : Nat) (values : List α) :
    (trim maxSize values).length ≤ maxSize := by
  induction values with
  | nil => exact Nat.zero_le _
  | cons first rest ih =>
      rw [trim]
      split
      · exact ih
      · rename_i fits
        simpa using Nat.le_of_not_lt fits

end Lemmas

/-! ## The time order

The list is the time index only while no element is later than one after it. `link`, `replace`
and `trim` keep that, given the properties of `<` that every linear order has (`TimeOrder`). -/

/-- What the time index needs of `<` on times: a strict order whose negation, "not later", is
transitive. -/
structure TimeOrder (τ : Type) [LT τ] : Prop where
  asymm : ∀ {a b : τ}, a < b → ¬b < a
  trans : ∀ {a b c : τ}, a < b → b < c → a < c
  not_lt_trans : ∀ {a b c : τ}, ¬b < a → ¬c < b → ¬c < a

def Ordered (time : α → τ) (values : List α) : Prop :=
  values.Pairwise fun earlier later => ¬time later < time earlier

section Ordered

variable {time : α → τ} (order : TimeOrder τ)

omit [DecidableLT τ] in
theorem Ordered.sublist {kept values : List α}
    (ordered : Ordered time values) (sub : kept.Sublist values) : Ordered time kept :=
  List.Pairwise.sublist sub ordered

include order in
theorem link_ordered {values : List α} (ordered : Ordered time values) (value : α) :
    Ordered time (link time value values) := by
  induction values with
  | nil => exact List.pairwise_singleton _ _
  | cons first rest ih =>
      obtain ⟨notBefore, restOrdered⟩ := List.pairwise_cons.mp ordered
      rw [link]
      split
      · next earlier =>
          refine List.Pairwise.cons ?_ ordered
          intro element member
          rcases List.mem_cons.mp member with rfl | later
          · exact order.asymm earlier
          · exact fun before => notBefore element later (order.trans before earlier)
      · next notEarlier =>
          refine List.Pairwise.cons ?_ (ih restOrdered)
          intro element member
          rcases List.mem_cons.mp ((link_perm value rest).subset member) with rfl | kept
          · exact notEarlier
          · exact notBefore element kept

include order in
theorem not_lt_of_head {values : List α} (ordered : Ordered time values) {value : α}
    (fits : (values.head?.all fun next => !decide (time next < time value)) = true) :
    ∀ element ∈ values, ¬time element < time value := by
  cases values with
  | nil => intro _ member; cases member
  | cons first rest =>
      have first_fits : ¬time first < time value := by simpa using fits
      intro element member
      rcases List.mem_cons.mp member with rfl | later
      · exact first_fits
      · exact order.not_lt_trans first_fits ((List.pairwise_cons.mp ordered).1 element later)

include order in
theorem not_lt_of_getLast {values : List α} (ordered : Ordered time values) {value : α}
    (fits : (values.getLast?.all fun previous => !decide (time value < time previous)) = true) :
    ∀ element ∈ values, ¬time value < time element := by
  rcases List.eq_nil_or_concat' values with rfl | ⟨front, last, rfl⟩
  · intro _ member; cases member
  · have last_fits : ¬time value < time last := by simpa using fits
    intro element member
    rcases List.mem_append.mp member with front_member | is_last
    · have before := List.pairwise_append.mp ordered
      exact order.not_lt_trans (before.2.2 element front_member last (List.mem_singleton_self _))
        last_fits
    · rw [List.mem_singleton.mp is_last]
      exact last_fits

omit [DecidableLT τ] in
theorem ordered_insert_between {before after : List α}
    (ordered : Ordered time (before ++ after)) {value : α}
    (afterBefore : ∀ element ∈ before, ¬time value < time element)
    (beforeAfter : ∀ element ∈ after, ¬time element < time value) :
    Ordered time (before ++ value :: after) := by
  obtain ⟨beforeOrdered, afterOrdered, across⟩ := List.pairwise_append.mp ordered
  refine List.pairwise_append.mpr ⟨beforeOrdered, List.Pairwise.cons beforeAfter afterOrdered, ?_⟩
  intro earlier earlierMember later laterMember
  rcases List.mem_cons.mp laterMember with rfl | kept
  · exact afterBefore earlier earlierMember
  · exact across earlier earlierMember later kept

include order in
theorem replace_ordered {values : List α} (ordered : Ordered time values) (index : Nat)
    (value : α) : Ordered time (replace time index value values) := by
  have rest : Ordered time (values.take index ++ values.drop (index + 1)) := by
    rw [← List.eraseIdx_eq_take_drop_succ]
    exact ordered.sublist (List.eraseIdx_sublist values index)
  unfold replace
  dsimp only
  split
  · next fits =>
      obtain ⟨beforeFits, afterFits⟩ := Bool.and_eq_true_iff.mp fits
      exact ordered_insert_between rest
        (not_lt_of_getLast order (ordered.sublist (List.take_sublist _ _)) beforeFits)
        (not_lt_of_head order (ordered.sublist (List.drop_sublist _ _)) afterFits)
  · exact link_ordered order rest value

omit [DecidableLT τ] in
theorem trim_ordered {values : List α}
    (ordered : Ordered time values) (maxSize : Nat) : Ordered time (trim maxSize values) :=
  ordered.sublist (trim_sublist maxSize values)

end Ordered

end MultiIndex
