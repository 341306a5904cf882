import Dynex.Core.Checkpoints
import Dynex.Common.StringTools
import Dynex.Core.AmountTextProperties

/-!
# Loading checkpoints from a file

`Checkpoints::add_checkpoint` and `Checkpoints::load_checkpoints_from_file` of
`DynexCNCore/Checkpoints.cpp`. A checkpoint file is a line `height,hash` a point:
`std::getline` reads up to the comma, then up to the end of the line; `std::stoi` reads the
height, which is stored in a `uint32_t`; `add_checkpoint` reads the hash with `podFromHex` and
inserts the point into the `std::map`, refusing a height it has. The first record that fails
ends the load with `false`; a height outside `int` makes `std::stoi` throw `std::out_of_range`,
which the function does not catch. The points added before either stay.

Inserting keeps the heights increasing, so `add_checkpoint` builds a `Checkpoints` with its
invariant. The loop's rounds are bounded by the bytes of the file, since every round reads some
(`loadLoop_of_length_le`).

A file written a line a point, each height below `2 ^ 31` and in decimal, each hash in
hexadecimal, loads into exactly those points (`load_checkpoints_from_file_checkpointsFile`), and
no file removes a point or changes the hash of a height that has one
(`load_checkpoints_from_file_keeps_points`).
-/

set_option autoImplicit false

namespace Dynex

open Crypto Common

namespace Checkpoints

/-! ## Adding a point -/

/-- `m_points.insert({ height, h })` at a height the map does not have: before the first point
above it. -/
def insertPoint (height : Nat) (hash : Hash) : List (Nat × Hash) → List (Nat × Hash)
  | [] => [(height, hash)]
  | point :: rest =>
      if height < point.1 then (height, hash) :: point :: rest
      else point :: insertPoint height hash rest

theorem mem_insertPoint {height : Nat} {hash : Hash} {point : Nat × Hash} :
    ∀ {points : List (Nat × Hash)},
      point ∈ insertPoint height hash points ↔ point = (height, hash) ∨ point ∈ points
  | [] => by simp [insertPoint]
  | first :: rest => by
      unfold insertPoint
      split
      · simp
      · rw [List.mem_cons, mem_insertPoint, List.mem_cons]
        tauto

theorem perm_insertPoint (height : Nat) (hash : Hash) :
    ∀ points : List (Nat × Hash), (insertPoint height hash points).Perm ((height, hash) :: points)
  | [] => List.Perm.refl _
  | first :: rest => by
      unfold insertPoint
      split
      · exact List.Perm.refl _
      · exact ((perm_insertPoint height hash rest).cons first).trans (List.Perm.swap _ _ _)

/-- The heights stay increasing where the new one is not among them. -/
theorem increasing_insertPoint {height : Nat} (hash : Hash) :
    ∀ {points : List (Nat × Hash)}, (points.map Prod.fst).Pairwise (· < ·) →
      (∀ point ∈ points, point.1 ≠ height) →
      ((insertPoint height hash points).map Prod.fst).Pairwise (· < ·)
  | [], _, _ => by simp [insertPoint]
  | first :: rest, increasing, absent => by
      rw [List.map_cons, List.pairwise_cons] at increasing
      obtain ⟨firstBelow, restIncreasing⟩ := increasing
      unfold insertPoint
      split
      · rename_i below
        rw [List.map_cons, List.pairwise_cons, List.map_cons, List.pairwise_cons]
        refine ⟨fun other member => ?_, firstBelow, restIncreasing⟩
        rcases List.mem_cons.mp member with rfl | later
        · exact below
        · exact below.trans (firstBelow other later)
      · rename_i notBelow
        have above : first.1 < height := by
          have differs := absent first List.mem_cons_self
          omega
        have later := increasing_insertPoint hash restIncreasing
          (fun point member => absent point (List.mem_cons_of_mem _ member))
        rw [List.map_cons, List.pairwise_cons]
        refine ⟨fun other member => ?_, later⟩
        obtain ⟨point, pointMember, rfl⟩ := List.mem_map.mp member
        rcases mem_insertPoint.mp pointMember with rfl | old
        · exact above
        · exact firstBelow _ (List.mem_map_of_mem old)

/-- `add_checkpoint(height, hash_str)`: the hash read from its text and inserted at the height;
`false`, the points unchanged, where the text is no hash or the height has a point already.
The assignment `m_points[height] = h` after the insertion writes the value just inserted. -/
def add_checkpoint (height : UInt32) (hash_str : List UInt8) (checkpoints : Checkpoints) :
    Bool × Checkpoints :=
  match podFromHex 32 hash_str with
  | none => (false, checkpoints)
  | some h =>
      if present : checkpoints.m_points.any (·.1 == height.toNat) then (false, checkpoints)
      else
        (true, ⟨insertPoint height.toNat ⟨h⟩ checkpoints.m_points,
          increasing_insertPoint ⟨h⟩ checkpoints.increasing fun point member same =>
            present (List.any_eq_true.mpr ⟨point, member, by simp [same]⟩)⟩)

theorem add_checkpoint_of_refused {height : UInt32} {hash_str : List UInt8}
    {checkpoints : Checkpoints} (refused : (add_checkpoint height hash_str checkpoints).1 = false) :
    (add_checkpoint height hash_str checkpoints).2 = checkpoints := by
  unfold add_checkpoint at refused ⊢
  split
  · rfl
  · split
    · rfl
    · rename_i h found present
      simp [found, present] at refused

theorem add_checkpoint_keeps (height : UInt32) (hash_str : List UInt8) (checkpoints : Checkpoints) :
    ∀ point ∈ checkpoints.m_points, point ∈ (add_checkpoint height hash_str checkpoints).2.m_points := by
  intro point member
  unfold add_checkpoint
  split
  · exact member
  · split
    · exact member
    · exact mem_insertPoint.mpr (.inr member)

theorem add_checkpoint_podToHex {height : UInt32} (hash : Hash) {checkpoints : Checkpoints}
    (absent : ∀ point ∈ checkpoints.m_points, point.1 ≠ height.toNat) :
    (add_checkpoint height (podToHex hash.pod) checkpoints).1 = true ∧
      (add_checkpoint height (podToHex hash.pod) checkpoints).2.m_points =
        insertPoint height.toNat hash checkpoints.m_points := by
  have notPresent : (checkpoints.m_points.any (·.1 == height.toNat)) = false := by
    simpa using absent
  unfold add_checkpoint
  rw [podFromHex_podToHex_self hash.pod]
  dsimp only
  rw [dif_neg (by simp [notPresent])]
  exact ⟨rfl, rfl⟩

/-! ## Reading the file -/

def getline (delimiter : UInt8) : List UInt8 → Option (List UInt8 × List UInt8)
  | [] => none
  | bytes => some (bytes.takeWhile (· != delimiter), (bytes.dropWhile (· != delimiter)).drop 1)

/-- How `std::stoi` ends: with an `int`, or throwing. -/
inductive StoiResult
  | value (n : Int)
  | invalid_argument
  | out_of_range
  deriving DecidableEq, Repr

/-- `std::stoi(text)`: `strtol` in base 10 skips the leading spaces, reads an optional sign and
the digits after it, and stops at the first other character. No digit throws
`std::invalid_argument`; a value outside `int` throws `std::out_of_range`. -/
def stoi (text : List UInt8) : StoiResult :=
  let text := text.dropWhile isspace
  let (negative, text) := match text with
    | c :: rest => if c == 45 then (true, rest) else if c == 43 then (false, rest) else (false, text)
    | [] => (false, [])
  let digits := text.takeWhile isdigit
  if digits.isEmpty then .invalid_argument
  else
    let value : Int := if negative then -(decimalValue digits : Int) else decimalValue digits
    if value < -2 ^ 31 ∨ 2 ^ 31 - 1 < value then .out_of_range else .value value

/-- How `load_checkpoints_from_file` ends: it returns, or `std::stoi` throws `std::out_of_range`
out of it. -/
inductive LoadResult
  | returned (loaded : Bool)
  | out_of_range
  deriving DecidableEq, Repr

/-- The loop of `load_checkpoints_from_file` over the bytes not read yet, while both
`std::getline` calls succeed. `height = std::stoi(indexString)` stores the `int` in a
`uint32_t`. -/
def loadLoop : Nat → List UInt8 → Checkpoints → LoadResult × Checkpoints
  | 0, _, checkpoints => (.returned true, checkpoints)
  | rounds + 1, file, checkpoints =>
      match getline 44 file with
      | none => (.returned true, checkpoints)
      | some (indexString, file) =>
          match getline 10 file with
          | none => (.returned true, checkpoints)
          | some (hash, file) =>
              match stoi indexString with
              | .invalid_argument => (.returned false, checkpoints)
              | .out_of_range => (.out_of_range, checkpoints)
              | .value height =>
                  match add_checkpoint (UInt32.ofNat (height % 2 ^ 32).toNat) hash checkpoints with
                  | (false, checkpoints) => (.returned false, checkpoints)
                  | (true, checkpoints) => loadLoop rounds file checkpoints

/-- `load_checkpoints_from_file(fileName)` on the bytes of the file, `none` where it does not
open. Every round reads a byte at least, so as many rounds as bytes are enough. -/
def load_checkpoints_from_file (file : Option (List UInt8)) (checkpoints : Checkpoints) :
    LoadResult × Checkpoints :=
  match file with
  | none => (.returned false, checkpoints)
  | some bytes => loadLoop bytes.length bytes checkpoints

/-! ## The loop's rounds -/

theorem getline_length_lt {delimiter : UInt8} {bytes text rest : List UInt8}
    (read : getline delimiter bytes = some (text, rest)) : rest.length < bytes.length := by
  cases bytes with
  | nil => cases read
  | cons first others =>
      simp only [getline, Option.some.injEq, Prod.mk.injEq] at read
      obtain ⟨-, rfl⟩ := read
      have shorter := (List.dropWhile_suffix (· != delimiter) (l := first :: others)).length_le
      rw [List.length_drop]
      have nonempty : 0 < (first :: others).length := by simp
      omega

theorem loadLoop_of_length_le :
    ∀ (rounds : Nat) (file : List UInt8) (checkpoints : Checkpoints), file.length ≤ rounds →
      loadLoop (rounds + 1) file checkpoints = loadLoop rounds file checkpoints
  | 0, file, checkpoints, empty => by
      rw [List.length_eq_zero_iff.mp (Nat.le_zero.mp empty)]
      rfl
  | rounds + 1, file, checkpoints, enough => by
      unfold loadLoop
      split
      · rfl
      · rename_i indexString afterIndex firstRead
        split
        · rfl
        · rename_i hash afterHash secondRead
          have first := getline_length_lt firstRead
          have second := getline_length_lt secondRead
          split
          · rfl
          · rfl
          · split
            · rfl
            · exact loadLoop_of_length_le rounds afterHash _ (by omega)

theorem loadLoop_enough {rounds : Nat} {file : List UInt8} (enough : file.length ≤ rounds)
    (checkpoints : Checkpoints) :
    loadLoop rounds file checkpoints = loadLoop file.length file checkpoints := by
  induction rounds, enough using Nat.le_induction with
  | base => rfl
  | succ rounds enough ih => rw [loadLoop_of_length_le rounds file checkpoints enough, ih]

/-! ## No point is lost -/

/-- What a round of the loop can do: end with the points it has, or add the point of a record
read from the bytes ahead and go on with the bytes after it. -/
theorem loadLoop_succ_cases (rounds : Nat) (file : List UInt8) (checkpoints : Checkpoints) :
    (∃ result, loadLoop (rounds + 1) file checkpoints = (result, checkpoints)) ∨
      ∃ height hash_str rest, rest.length < file.length ∧
        (add_checkpoint height hash_str checkpoints).1 = true ∧
        loadLoop (rounds + 1) file checkpoints =
          loadLoop rounds rest (add_checkpoint height hash_str checkpoints).2 := by
  rw [loadLoop.eq_2]
  split
  · exact .inl ⟨_, rfl⟩
  · rename_i indexString afterIndex firstRead
    split
    · exact .inl ⟨_, rfl⟩
    · rename_i hash_str rest secondRead
      split
      · exact .inl ⟨_, rfl⟩
      · exact .inl ⟨_, rfl⟩
      · rename_i height _
        cases added : add_checkpoint (UInt32.ofNat (height % 2 ^ 32).toNat) hash_str checkpoints with
        | mk accepted next =>
            cases accepted with
            | false =>
                left
                refine ⟨.returned false, ?_⟩
                have unchanged := add_checkpoint_of_refused (by rw [added])
                rw [added] at unchanged
                simp only at unchanged
                rw [unchanged]
            | true =>
                right
                refine ⟨_, hash_str, rest, ?_, by rw [added], by rw [added]⟩
                have first := getline_length_lt firstRead
                have second := getline_length_lt secondRead
                omega

theorem loadLoop_keeps :
    ∀ (rounds : Nat) (file : List UInt8) (checkpoints : Checkpoints),
      ∀ point ∈ checkpoints.m_points, point ∈ (loadLoop rounds file checkpoints).2.m_points
  | 0, _, _, _, member => member
  | rounds + 1, file, checkpoints, point, member => by
      rcases loadLoop_succ_cases rounds file checkpoints with
        ⟨result, ended⟩ | ⟨height, hash_str, rest, -, -, continued⟩
      · rw [ended]
        exact member
      · rw [continued]
        exact loadLoop_keeps rounds rest _ point
          (add_checkpoint_keeps height hash_str checkpoints point member)

/-- Whatever the file holds and however the load ends, every point there was stays: a file
cannot take out a checkpoint or give a height that has one another hash. -/
theorem load_checkpoints_from_file_keeps_points (file : Option (List UInt8))
    (checkpoints : Checkpoints) :
    ∀ point ∈ checkpoints.m_points,
      point ∈ (load_checkpoints_from_file file checkpoints).2.m_points := by
  intro point member
  cases file with
  | none => exact member
  | some bytes => exact loadLoop_keeps bytes.length bytes checkpoints point member

def pointAtFive : Checkpoints := ⟨[(5, NULL_HASH)], List.pairwise_singleton _ _⟩

/-- A file that gives height 5 another hash leaves the checkpoint there. -/
theorem other_hash_at_five_kept :
    (5, NULL_HASH) ∈ pointAtFive.m_points ∧
      (5, NULL_HASH) ∈ (load_checkpoints_from_file
        (some (to_string 5 ++ 44 :: podToHex (Pod.ofByte 1 : Pod 32) ++ [10])) pointAtFive).2.m_points :=
  have present : (5, NULL_HASH) ∈ pointAtFive.m_points := List.mem_singleton_self _
  ⟨present, load_checkpoints_from_file_keeps_points _ pointAtFive _ present⟩

/-! ## Reading back a written file -/

def checkpointsFile (points : List (Nat × Hash)) : List UInt8 :=
  points.flatMap fun point => to_string point.1 ++ 44 :: podToHex point.2.pod ++ [10]

theorem getline_append {delimiter : UInt8} {text : List UInt8} (free : delimiter ∉ text)
    (rest : List UInt8) : getline delimiter (text ++ delimiter :: rest) = some (text, rest) := by
  have others : ∀ c ∈ text, (c != delimiter) = true := fun c member => by
    simp only [bne_iff_ne, ne_eq]
    rintro rfl
    exact free member
  cases text with
  | nil => simp [getline]
  | cons first others' =>
      simp only [getline, List.cons_append, Option.some.injEq, Prod.mk.injEq]
      rw [← List.cons_append, List.takeWhile_append_of_pos others,
        List.dropWhile_append_of_pos others]
      simp

theorem to_string_ne_nil (value : Nat) : to_string value ≠ [] := by
  unfold to_string
  split
  · simp
  · rename_i positive
    simpa using Nat.digits_ne_nil_iff_ne_zero.mpr positive

theorem stoi_to_string {value : Nat} (small : value < 2 ^ 31) :
    stoi (to_string value) = .value value := by
  obtain ⟨first, rest, split⟩ := List.exists_cons_of_ne_nil (to_string_ne_nil value)
  have digits := isdigit_to_string value
  have firstDigit : isdigit first = true := digits first (split ▸ List.mem_cons_self)
  have noSpace : (to_string value).dropWhile isspace = to_string value := by
    rw [split, List.dropWhile_cons_of_neg (by simp [isspace_of_isdigit firstDigit])]
  have noSign : first ≠ 45 ∧ first ≠ 43 := by
    constructor <;> rintro rfl <;> simp [isdigit] at firstDigit
  have allDigits : (to_string value).takeWhile isdigit = to_string value :=
    List.takeWhile_eq_self_iff.mpr digits
  unfold stoi
  rw [noSpace, split]
  simp only [beq_iff_eq, noSign.1, noSign.2, if_false]
  rw [← split, allDigits, decimalValue_to_string]
  have nonempty : (to_string value).isEmpty = false :=
    List.isEmpty_eq_false_iff.mpr (to_string_ne_nil value)
  simp only [nonempty, Bool.false_eq_true, if_false]
  rw [if_neg (by omega)]

theorem hexDigit_ne_newline : ∀ value : UInt8, hexDigit value ≠ 10 := by
  decide +kernel

theorem newline_not_mem_toHex (data : List UInt8) : (10 : UInt8) ∉ toHex data := by
  intro member
  simp only [toHex, List.mem_flatMap, List.mem_cons, List.not_mem_nil, or_false] at member
  obtain ⟨byte, -, high | low⟩ := member
  · exact hexDigit_ne_newline _ high.symm
  · exact hexDigit_ne_newline _ low.symm

/-- One round over the line of a point at a height the map does not have: the point is
inserted, and the loop goes on after the line. -/
theorem loadLoop_line {height : Nat} (small : height < 2 ^ 31) (hash : Hash) (rest : List UInt8)
    (rounds : Nat) {checkpoints : Checkpoints}
    (absent : ∀ point ∈ checkpoints.m_points, point.1 ≠ height) :
    loadLoop (rounds + 1) (to_string height ++ 44 :: (podToHex hash.pod ++ 10 :: rest))
        checkpoints =
      loadLoop rounds rest ⟨insertPoint height hash checkpoints.m_points,
        increasing_insertPoint hash checkpoints.increasing absent⟩ := by
  have stored : UInt32.ofNat ((height : Int) % 2 ^ 32).toNat = UInt32.ofNat height := by
    rw [Int.emod_eq_of_lt (by omega) (by omega), Int.toNat_natCast]
  have height32 : (UInt32.ofNat height).toNat = height := by
    have fits : height < 2 ^ 32 := by omega
    exact UInt32.toNat_ofNat_of_lt' fits
  have noComma : (44 : UInt8) ∉ to_string height := fun member =>
    absurd (isdigit_to_string height 44 member) (by decide)
  have noNewline : (10 : UInt8) ∉ podToHex hash.pod := newline_not_mem_toHex _
  obtain ⟨added, inserted⟩ :=
    @add_checkpoint_podToHex (UInt32.ofNat height) hash checkpoints (by rw [height32]; exact absent)
  rw [loadLoop.eq_2, getline_append noComma]
  dsimp only
  rw [getline_append noNewline]
  dsimp only
  rw [stoi_to_string small]
  dsimp only
  rw [stored]
  generalize add_checkpoint (UInt32.ofNat height) (podToHex hash.pod) checkpoints = outcome
    at added inserted
  obtain ⟨accepted, ⟨points, _⟩⟩ := outcome
  dsimp only at added inserted
  subst added
  rw [height32] at inserted
  subst inserted
  rfl

/-- The file of the points ahead, read from a line on: every point is added, in order. -/
theorem loadLoop_checkpointsFile :
    ∀ (points : List (Nat × Hash)) (checkpoints : Checkpoints) (rounds : Nat),
      (checkpointsFile points).length ≤ rounds →
      (∀ point ∈ points, point.1 < 2 ^ 31) →
      ((checkpoints.m_points ++ points).map Prod.fst).Nodup →
      (loadLoop rounds (checkpointsFile points) checkpoints).1 = .returned true ∧
        (loadLoop rounds (checkpointsFile points) checkpoints).2.m_points.Perm
          (checkpoints.m_points ++ points)
  | [], checkpoints, rounds, _, _, _ => by
      cases rounds <;> simp [checkpointsFile, loadLoop, getline]
  | point :: points, checkpoints, rounds, enough, small, distinct => by
      have absent : ∀ other ∈ checkpoints.m_points, other.1 ≠ point.1 := by
        intro other member same
        rw [List.map_append, List.nodup_append] at distinct
        exact distinct.2.2 _ (List.mem_map_of_mem member) _
          (List.mem_map_of_mem List.mem_cons_self) same
      have file : checkpointsFile (point :: points) =
          to_string point.1 ++ 44 :: (podToHex point.2.pod ++ 10 :: checkpointsFile points) := by
        simp [checkpointsFile]
      rw [file] at enough ⊢
      simp only [List.length_append, List.length_cons] at enough
      obtain ⟨rounds, rfl⟩ : ∃ previous, rounds = previous + 1 := ⟨rounds - 1, by omega⟩
      rw [loadLoop_line (small point List.mem_cons_self) point.2 _ rounds absent]
      have moved : (insertPoint point.1 point.2 checkpoints.m_points ++ points).Perm
          (checkpoints.m_points ++ point :: points) :=
        ((perm_insertPoint point.1 point.2 _).append_right points).trans List.perm_middle.symm
      obtain ⟨loaded, perm⟩ := loadLoop_checkpointsFile points
        ⟨_, increasing_insertPoint point.2 checkpoints.increasing absent⟩ rounds (by omega)
        (fun other member => small other (List.mem_cons_of_mem _ member))
        ((moved.map Prod.fst).nodup_iff.mpr distinct)
      exact ⟨loaded, perm.trans moved⟩

/-- A file written a line a point, each height below `2 ^ 31` in decimal and each hash in
hexadecimal, loads into a map whose heights are not among them: `load_checkpoints_from_file`
returns `true`, and the points are those of the map and the file. -/
theorem load_checkpoints_from_file_checkpointsFile (checkpoints : Checkpoints)
    (points : List (Nat × Hash)) (small : ∀ point ∈ points, point.1 < 2 ^ 31)
    (distinct : ((checkpoints.m_points ++ points).map Prod.fst).Nodup) :
    (load_checkpoints_from_file (some (checkpointsFile points)) checkpoints).1 = .returned true ∧
      (load_checkpoints_from_file (some (checkpointsFile points)) checkpoints).2.m_points.Perm
        (checkpoints.m_points ++ points) :=
  loadLoop_checkpointsFile points checkpoints _ le_rfl small distinct

/-- Two points written in the wrong order load, beside the checkpoint at height 5. -/
theorem two_points_load :
    (∀ point ∈ [(7, NULL_HASH), (3, NULL_HASH)], point.1 < 2 ^ 31) ∧
      ((pointAtFive.m_points ++ [(7, NULL_HASH), (3, NULL_HASH)]).map Prod.fst).Nodup ∧
      (load_checkpoints_from_file (some (checkpointsFile [(7, NULL_HASH), (3, NULL_HASH)]))
          pointAtFive).1 = .returned true ∧
      (load_checkpoints_from_file (some (checkpointsFile [(7, NULL_HASH), (3, NULL_HASH)]))
          pointAtFive).2.m_points.Perm (pointAtFive.m_points ++ [(7, NULL_HASH), (3, NULL_HASH)]) :=
  ⟨by decide, by decide,
    load_checkpoints_from_file_checkpointsFile pointAtFive _ (by decide) (by decide)⟩

end Checkpoints

end Dynex
