import Dynex.Mnemonics.WordLists

/-!
# What a mnemonic seed keeps

With `n = 1626` words, one `uint32_t` is three base-`n` digits, each written as its difference to
the digit before. Read back, the three indices give the value `tripleValue`, which may exceed
`2 ^ 32` since `n ^ 3 > 2 ^ 32`; `words_to_bytes` computes it in `uint32_t`, and its test
`val % n == w1` holds exactly when nothing wrapped (`decodeTriple_ofNat`), that is exactly for
the triples `bytes_to_words` writes (`decodeTriple_isSome_iff`). Over a whole key, the indices
`bytes_to_words` writes decode back to the key (`decodeIndices_keyIndices`).

Which language the words are read in is another matter. Two languages of `c_languageMap` share
a word: Russian's `word_list[4]` and Ukrainian's `word_list[2]` are both `абсурд`. A key all of
whose `uint32_t` are `4` is, in Russian, the same text as a key all of whose `uint32_t` are `2`,
in Ukrainian, so `words_to_bytes` cannot give both back.
-/

set_option autoImplicit false

namespace Dynex.Crypto.ElectrumWords

open Dynex.Language

/-! ## One triple -/

def tripleValue (w1 w2 w3 : Nat) : Nat :=
  w1 + 1626 * ((1626 - w1 + w2) % 1626) + 1626 * 1626 * ((1626 - w2 + w3) % 1626)

/-- The three indices `bytes_to_words` writes for `value`, with `n = 1626`. -/
def tripleDigits (value : Nat) : Nat × Nat × Nat :=
  let w1 := value % 1626
  let w2 := (value / 1626 + w1) % 1626
  let w3 := (value / 1626 / 1626 + w2) % 1626
  (w1, w2, w3)

theorem lt_size {value : Nat} (small : value < 2 ^ 32) : value < UInt32.size := small

theorem wrapped_iff {w1 x y : Nat} (h1 : w1 < 1626) (hx : x < 1626) (hy : y < 1626) :
    (w1 + 1626 * x + 1626 * 1626 * y) % 2 ^ 32 % 1626 = w1 ↔
      w1 + 1626 * x + 1626 * 1626 * y < 2 ^ 32 := by
  generalize value : w1 + 1626 * x + 1626 * 1626 * y = v
  have residue : v % 1626 = w1 := by omega
  have below : v < 2 * 2 ^ 32 := by omega
  constructor
  · intro same
    by_contra wrapped
    obtain ⟨r, rfl⟩ : ∃ r, v = r + 2 ^ 32 := ⟨v - 2 ^ 32, by omega⟩
    have once : (r + 2 ^ 32) % 2 ^ 32 = r := by
      rw [Nat.add_mod_right, Nat.mod_eq_of_lt (by omega)]
    have shifted : (r + 2 ^ 32) % 1626 = (r % 1626 + 490) % 1626 := by
      rw [Nat.add_mod]
      norm_num
    rw [once] at same
    rw [shifted, same] at residue
    omega
  · intro fits
    rw [Nat.mod_eq_of_lt fits, residue]

theorem sub_add_mod_ofNat {a b : Nat} (ha : a < 1626) (hb : b < 1626) :
    ((1626 : UInt32) - .ofNat a + .ofNat b) % 1626 = .ofNat ((1626 - a + b) % 1626) := by
  have le : UInt32.ofNat a ≤ 1626 := by
    rw [UInt32.le_iff_toNat_le, UInt32.toNat_ofNat_of_lt' (lt_size (by omega))]
    simp
    omega
  rw [← UInt32.toNat_inj, UInt32.toNat_mod, UInt32.toNat_add, UInt32.toNat_sub_of_le _ _ le,
    UInt32.toNat_ofNat_of_lt' (lt_size (by omega)), UInt32.toNat_ofNat_of_lt' (lt_size (by omega)),
    UInt32.toNat_ofNat_of_lt' (lt_size (by omega))]
  simp
  omega

theorem decodeTriple_ofNat {w1 w2 w3 : Nat} (h1 : w1 < 1626) (h2 : w2 < 1626) (h3 : w3 < 1626) :
    decodeTriple 1626 (.ofNat w1) (.ofNat w2) (.ofNat w3) =
      if tripleValue w1 w2 w3 < 2 ^ 32 then some (.ofNat (tripleValue w1 w2 w3)) else none := by
  have val : UInt32.ofNat w1 + 1626 * ((1626 - .ofNat w1 + .ofNat w2) % 1626) +
      1626 * 1626 * ((1626 - .ofNat w2 + .ofNat w3) % 1626) = .ofNat (tripleValue w1 w2 w3) := by
    rw [sub_add_mod_ofNat h1 h2, sub_add_mod_ofNat h2 h3, tripleValue, UInt32.ofNat_add,
      UInt32.ofNat_add, UInt32.ofNat_mul, UInt32.ofNat_mul, UInt32.ofNat_mul]
    rfl
  have accepted : (UInt32.ofNat (tripleValue w1 w2 w3) % 1626 == UInt32.ofNat w1) =
      decide (tripleValue w1 w2 w3 < 2 ^ 32) := by
    rw [Bool.eq_iff_iff, beq_iff_eq, decide_eq_true_iff, ← UInt32.toNat_inj, UInt32.toNat_mod,
      UInt32.toNat_ofNat', UInt32.toNat_ofNat_of_lt' (lt_size (by omega))]
    exact wrapped_iff h1 (Nat.mod_lt _ (by decide)) (Nat.mod_lt _ (by decide))
  unfold decodeTriple
  dsimp only
  rw [val, accepted]
  simp only [decide_eq_true_eq]

theorem tripleDigits_tripleValue {w1 w2 w3 : Nat} (h1 : w1 < 1626) (h2 : w2 < 1626)
    (h3 : w3 < 1626) : tripleDigits (tripleValue w1 w2 w3) = (w1, w2, w3) := by
  have first : tripleValue w1 w2 w3 % 1626 = w1 := by unfold tripleValue; omega
  have low : tripleValue w1 w2 w3 / 1626 =
      (1626 - w1 + w2) % 1626 + 1626 * ((1626 - w2 + w3) % 1626) := by
    unfold tripleValue
    omega
  simp only [tripleDigits, first, low, Prod.mk.injEq, true_and]
  constructor
  · omega
  · omega

theorem tripleValue_tripleDigits {value : Nat} (fits : value < 2 ^ 32) :
    tripleValue (tripleDigits value).1 (tripleDigits value).2.1 (tripleDigits value).2.2 = value := by
  obtain ⟨a, b, c, ha, hb, hc, rfl⟩ : ∃ a b c, a < 1626 ∧ b < 1626 ∧ c < 1626 ∧
      value = a + 1626 * b + 1626 * 1626 * c :=
    ⟨value % 1626, value / 1626 % 1626, value / 1626 / 1626, by omega, by omega, by omega,
      by omega⟩
  have first : (a + 1626 * b + 1626 * 1626 * c) % 1626 = a := by omega
  have low : (a + 1626 * b + 1626 * 1626 * c) / 1626 = b + 1626 * c := by omega
  have high : (b + 1626 * c) / 1626 = c := by omega
  simp only [tripleDigits, tripleValue, first, low, high]
  have second : (1626 - a + (b + 1626 * c + a) % 1626) % 1626 = b := by omega
  have third : (1626 - (b + 1626 * c + a) % 1626 + (c + (b + 1626 * c + a) % 1626) % 1626) %
      1626 = c := by
    omega
  rw [second, third]

theorem tripleDigits_lt (value : Nat) :
    (tripleDigits value).1 < 1626 ∧ (tripleDigits value).2.1 < 1626 ∧
      (tripleDigits value).2.2 < 1626 := by
  simp only [tripleDigits]
  omega

theorem encodeTriple_eq (val : UInt32) :
    encodeTriple 1626 val = (.ofNat (tripleDigits val.toNat).1, .ofNat (tripleDigits val.toNat).2.1,
      .ofNat (tripleDigits val.toNat).2.2) := by
  have fits := val.toNat_lt
  have n : (1626 : UInt32).toNat = 1626 := rfl
  have w1 : val % 1626 = .ofNat (val.toNat % 1626) := by
    rw [← UInt32.toNat_inj, UInt32.toNat_mod, UInt32.toNat_ofNat_of_lt' (lt_size (by omega)), n]
  have w2 : (val / 1626 + .ofNat (val.toNat % 1626)) % 1626 =
      .ofNat ((val.toNat / 1626 + val.toNat % 1626) % 1626) := by
    rw [← UInt32.toNat_inj, UInt32.toNat_mod, UInt32.toNat_add, UInt32.toNat_div,
      UInt32.toNat_ofNat_of_lt' (lt_size (by omega)), UInt32.toNat_ofNat_of_lt' (lt_size (by omega)),
      n, Nat.mod_eq_of_lt (by omega : val.toNat / 1626 + val.toNat % 1626 < 2 ^ 32)]
  have w3 : (val / 1626 / 1626 + .ofNat ((val.toNat / 1626 + val.toNat % 1626) % 1626)) % 1626 =
      .ofNat ((val.toNat / 1626 / 1626 + (val.toNat / 1626 + val.toNat % 1626) % 1626) % 1626) := by
    rw [← UInt32.toNat_inj, UInt32.toNat_mod, UInt32.toNat_add, UInt32.toNat_div,
      UInt32.toNat_div, UInt32.toNat_ofNat_of_lt' (lt_size (by omega)),
      UInt32.toNat_ofNat_of_lt' (lt_size (by omega)), n,
      Nat.mod_eq_of_lt (by omega :
        val.toNat / 1626 / 1626 + (val.toNat / 1626 + val.toNat % 1626) % 1626 < 2 ^ 32)]
  simp only [encodeTriple, tripleDigits, w1, w2, w3]

theorem decodeTriple_encodeTriple (val : UInt32) :
    decodeTriple 1626 (encodeTriple 1626 val).1 (encodeTriple 1626 val).2.1
      (encodeTriple 1626 val).2.2 = some val := by
  obtain ⟨h1, h2, h3⟩ := tripleDigits_lt val.toNat
  rw [encodeTriple_eq, decodeTriple_ofNat h1 h2 h3, tripleValue_tripleDigits val.toNat_lt,
    if_pos val.toNat_lt, UInt32.ofNat_toNat]

theorem encodeTriple_of_decodeTriple {w1 w2 w3 : Nat} (h1 : w1 < 1626) (h2 : w2 < 1626)
    (h3 : w3 < 1626) {val : UInt32}
    (decoded : decodeTriple 1626 (.ofNat w1) (.ofNat w2) (.ofNat w3) = some val) :
    encodeTriple 1626 val = (.ofNat w1, .ofNat w2, .ofNat w3) := by
  rw [decodeTriple_ofNat h1 h2 h3] at decoded
  split at decoded
  · next fits =>
      cases decoded
      rw [encodeTriple_eq, UInt32.toNat_ofNat_of_lt' (lt_size fits),
        tripleDigits_tripleValue h1 h2 h3]
  · cases decoded

theorem decodeTriple_isSome_iff {w1 w2 w3 : Nat} (h1 : w1 < 1626) (h2 : w2 < 1626)
    (h3 : w3 < 1626) :
    (decodeTriple 1626 (.ofNat w1) (.ofNat w2) (.ofNat w3)).isSome ↔
      ∃ val, encodeTriple 1626 val = (.ofNat w1, .ofNat w2, .ofNat w3) := by
  constructor
  · intro accepted
    obtain ⟨val, decoded⟩ := Option.isSome_iff_exists.mp accepted
    exact ⟨val, encodeTriple_of_decodeTriple h1 h2 h3 decoded⟩
  · rintro ⟨val, encoded⟩
    have decoded := decodeTriple_encodeTriple val
    rw [encoded] at decoded
    rw [decoded]
    rfl

/-! ## A whole key -/

def tripleIndices (word_list_length val : UInt32) : List Nat :=
  let (w1, w2, w3) := encodeTriple word_list_length val
  [w1.toNat, w2.toNat, w3.toNat]

def keyIndices (word_list_length : UInt32) (data : List UInt8) : List Nat :=
  (fourByteWords data).flatMap (tripleIndices word_list_length)

theorem fourByteWords_append {bytes : List UInt8} (four : bytes.length = 4) (rest : List UInt8) :
    fourByteWords (bytes ++ rest) = .ofNat (Codec.leValue bytes) :: fourByteWords rest := by
  match bytes, four with
  | [_, _, _, _], _ => rfl

theorem decodeIndices_keyIndices (data : List UInt8) (whole : data.length % 4 = 0) :
    decodeIndices 1626 (keyIndices 1626 data) = some data := by
  fun_induction fourByteWords data with
  | case1 a b c d rest ih =>
      have fits : Codec.leValue [a, b, c, d] < 2 ^ 32 := by
        simpa using Codec.leValue_lt [a, b, c, d]
      have written : (UInt32.ofNat (Codec.leValue [a, b, c, d])).toNat = Codec.leValue [a, b, c, d] :=
        UInt32.toNat_ofNat_of_lt' (lt_size fits)
      have decoded := decodeTriple_encodeTriple (.ofNat (Codec.leValue [a, b, c, d]))
      simp only [List.length_cons] at whole
      simp only [keyIndices, fourByteWords, List.flatMap_cons, tripleIndices] at ih ⊢
      simp only [List.cons_append, List.nil_append, decodeIndices, UInt32.ofNat_toNat, decoded,
        ih (by omega)]
      show some (Codec.leBytes 4 (UInt32.ofNat (Codec.leValue [a, b, c, d])).toNat ++ rest) = _
      rw [written]
      exact congrArg (fun bytes => some (bytes ++ rest)) (Codec.leBytes_leValue [a, b, c, d])
  | case2 bytes short =>
      have empty : bytes = [] := by
        match bytes, short with
        | [], _ => rfl
        | [_], _ | [_, _], _ | [_, _, _], _ => simp at whole
        | _ :: _ :: _ :: _ :: _, short => exact absurd rfl (short _ _ _ _ _)
      subst empty
      rfl

def spokenWord (word_list : List String) (w : Nat) : List UInt8 := utf8 (word_list.getD w "")

theorem create_checksum_index_lt (word_list : List (List UInt8)) (unique_prefix_length : Nat) :
    create_checksum_index word_list unique_prefix_length < seed_length :=
  Nat.mod_lt _ (by decide)

theorem encodeWords_eq (word_list : List String) (word_list_length : UInt32) (values : List UInt32)
    (words : List UInt8) (words_store : List (List UInt8)) :
    encodeWords word_list word_list_length values (words, words_store) =
      (words ++ ((values.flatMap (tripleIndices word_list_length)).map
          fun w => spokenWord word_list w ++ [32]).flatten,
        words_store ++ (values.flatMap (tripleIndices word_list_length)).map (spokenWord word_list)) := by
  induction values generalizing words words_store with
  | nil => simp [encodeWords]
  | cons val rest ih =>
      simp only [encodeWords, ih, List.flatMap_cons, tripleIndices]
      simp [spokenWord]

theorem bytes_to_words_eq {languages : List Base} {language_name : String} {language : Base}
    (found : languages.find? (·.language_name == language_name) = some language)
    (src : SecretKey) (words : List UInt8) :
    let spoken := (keyIndices (.ofNat language.word_list.length) src.data).map
      (spokenWord language.word_list)
    bytes_to_words languages src words language_name =
      some ((words ++ (spoken.map (· ++ [32])).flatten).dropLast ++
        32 :: spoken.getD (create_checksum_index spoken language.unique_prefix_length) []) := by
  intro spoken
  have loop := encodeWords_eq language.word_list (.ofNat language.word_list.length)
    (fourByteWords src.data) words []
  unfold bytes_to_words
  rw [if_neg (by decide)]
  simp only [found, loop, List.nil_append, spoken, keyIndices, List.map_map, Function.comp_def]

/-! ## Two languages, one seed -/

def constantKey (value : UInt32) : SecretKey :=
  ⟨(List.replicate 8 (Codec.leBytes 4 value.toNat)).flatten, by simp⟩

theorem fourByteWords_constantKey (value : UInt32) :
    fourByteWords (constantKey value).data = List.replicate 8 value := by
  have word : UInt32.ofNat (Codec.leValue (Codec.leBytes 4 value.toNat)) = value := by
    have fits : value.toNat < 256 ^ 4 := lt_of_lt_of_eq value.toNat_lt (by norm_num)
    rw [Codec.leValue_leBytes, Nat.mod_eq_of_lt fits, UInt32.ofNat_toNat]
  have repeated : ∀ count, fourByteWords (List.replicate count (Codec.leBytes 4 value.toNat)).flatten =
      List.replicate count value := by
    intro count
    induction count with
    | zero => rfl
    | succ count ih =>
        rw [List.replicate_succ, List.flatten_cons, fourByteWords_append (Codec.length_leBytes _ _),
          ih, word, List.replicate_succ]
  exact repeated 8

theorem encodeTriple_of_lt {word_list_length val : UInt32} (below : val < word_list_length) :
    encodeTriple word_list_length val = (val, val, val) := by
  rw [UInt32.lt_iff_toNat_lt] at below
  have low : val % word_list_length = val := by
    rw [← UInt32.toNat_inj, UInt32.toNat_mod, Nat.mod_eq_of_lt below]
  have none : val / word_list_length = 0 := by
    rw [← UInt32.toNat_inj, UInt32.toNat_div, Nat.div_eq_of_lt below]
    rfl
  simp only [encodeTriple, low, none, UInt32.zero_div, UInt32.zero_add]

/-- The text `bytes_to_words` writes for `constantKey value`: twenty-four times the word at
`value`, then that word again as the checksum. -/
theorem bytes_to_words_constantKey {languages : List Base} {language_name : String}
    {language : Base} (found : languages.find? (·.language_name == language_name) = some language)
    {value : UInt32} (inside : value.toNat < language.word_list.length)
    (fits : language.word_list.length < 2 ^ 32) (words : List UInt8) :
    bytes_to_words languages (constantKey value) words language_name =
      some (words ++ (List.replicate 24 (spokenWord language.word_list value.toNat ++ [32])).flatten ++
        spokenWord language.word_list value.toNat) := by
  have below : value < UInt32.ofNat language.word_list.length := by
    rw [UInt32.lt_iff_toNat_lt, UInt32.toNat_ofNat_of_lt' (lt_size fits)]
    exact inside
  have indices : keyIndices (.ofNat language.word_list.length) (constantKey value).data =
      List.replicate 24 value.toNat := by
    rw [keyIndices, fourByteWords_constantKey, List.flatMap_replicate]
    simp [tripleIndices, encodeTriple_of_lt below, List.replicate_succ]
  have written := bytes_to_words_eq found (constantKey value) words
  dsimp only at written
  rw [written, indices, List.map_replicate]
  generalize spokenWord language.word_list value.toNat = word
  have checksum : (List.replicate 24 word).getD
      (create_checksum_index (List.replicate 24 word) language.unique_prefix_length) [] = word := by
    have inside : create_checksum_index (List.replicate 24 word) language.unique_prefix_length < 24 :=
      create_checksum_index_lt _ _
    rw [List.getD_eq_getElem?_getD, List.getElem?_replicate, if_pos inside]
    rfl
  have spaced : (words ++ (List.replicate 24 (word ++ [32])).flatten).dropLast =
      words ++ (List.replicate 23 (word ++ [32])).flatten ++ word := by
    rw [List.replicate_succ', List.flatten_append, List.flatten_singleton, ← List.append_assoc,
      ← List.append_assoc, List.dropLast_concat]
  rw [List.map_replicate, checksum, spaced, List.replicate_succ', List.flatten_append,
    List.flatten_singleton]
  simp

/-- Two languages that share a word write two keys as one text, so `words_to_bytes` gives back
at most one of them, whatever the order of the languages. -/
theorem shared_word_seed_restores_at_most_one {languages : List Base} {first second : Base}
    (firstFound : languages.find? (·.language_name == first.language_name) = some first)
    (secondFound : languages.find? (·.language_name == second.language_name) = some second)
    (named : first.language_name ≠ second.language_name) {i j : UInt32}
    (firstInside : i.toNat < first.word_list.length) (firstFits : first.word_list.length < 2 ^ 32)
    (secondInside : j.toNat < second.word_list.length)
    (secondFits : second.word_list.length < 2 ^ 32)
    (shared : first.word_list.getD i.toNat "" = second.word_list.getD j.toNat "") :
    ∃ words, bytes_to_words languages (constantKey i) [] first.language_name = some words ∧
      bytes_to_words languages (constantKey j) [] second.language_name = some words ∧
      (words_to_bytes languages words ≠ some ((constantKey i).data, first.language_name) ∨
        words_to_bytes languages words ≠ some ((constantKey j).data, second.language_name)) := by
  refine ⟨_, bytes_to_words_constantKey firstFound firstInside firstFits [], ?same, ?restored⟩
  case same =>
    rw [bytes_to_words_constantKey secondFound secondInside secondFits [], spokenWord, spokenWord,
      shared]
  case restored =>
    by_contra both
    obtain ⟨asFirst, asSecond⟩ := not_or.mp both
    rw [not_not.mp asFirst] at asSecond
    exact named (congrArg Prod.snd (Option.some.inj (not_not.mp asSecond)))

/-- Russian's `абсурд` is its word 4 and Ukrainian's word 2: the key of eight `uint32_t` 4 in
Russian and the key of eight `uint32_t` 2 in Ukrainian are one seed. -/
theorem russian_and_ukrainian_keys_share_a_seed :
    ∃ words, bytes_to_words [Russian, Ukrainian] (constantKey 4) [] Russian.language_name =
        some words ∧
      bytes_to_words [Russian, Ukrainian] (constantKey 2) [] Ukrainian.language_name = some words ∧
      (words_to_bytes [Russian, Ukrainian] words ≠
          some ((constantKey 4).data, Russian.language_name) ∨
        words_to_bytes [Russian, Ukrainian] words ≠
          some ((constantKey 2).data, Ukrainian.language_name)) :=
  @shared_word_seed_restores_at_most_one [Russian, Ukrainian] Russian Ukrainian
    (List.find?_cons_of_pos (by decide))
    (by rw [List.find?_cons_of_neg (by decide), List.find?_cons_of_pos (by decide)])
    (by decide) 4 2 (by decide +kernel) (by decide +kernel) (by decide +kernel)
    (by decide +kernel) rfl

end Dynex.Crypto.ElectrumWords
