import Dynex.Core.AmountText
import Dynex.Lib.ByteCodec

/-!
# Mnemonic seeds

`Crypto::ElectrumWords` of `Mnemonics/electrum-words.cpp`. `bytes_to_words` cuts a secret key into
eight little-endian `uint32_t` values and writes each as three words of the language's 1626: the
value's three digits in base 1626, each added to the digit before. It then appends a checksum
word, one of the 24 chosen by a CRC-32 of their prefixes. `words_to_bytes` splits the text,
finds the language whose words (or, with the checksum, their prefixes) all match, checks the
checksum and turns each three indices back into a `uint32_t`. It refuses a triple whose value
wrapped around 32 bits.

`c_languageMap` is an `unordered_map`, whose iteration order the standard leaves to the library:
the functions take the languages as a list in that order. Strings are their UTF-8 bytes; a
language's words are the source's literals. `populate_maps` stores in each map the last index of a
key, so a lookup returns the last word with that key.
-/

set_option autoImplicit false

namespace Dynex

namespace Crypto.ElectrumWords

def seed_length : Nat := 24

end Crypto.ElectrumWords

namespace Language

/-- `Language::Base`: the name, the word list and the length of the prefixes that tell the words
apart. -/
structure Base where
  language_name : String
  word_list : List String
  unique_prefix_length : Nat

def utf8 (word : String) : List UInt8 := word.toUTF8.data.toList

/-- `utf8prefix(s, count)`: at most the first `count` characters, a character being a byte and
the `10xxxxxx` continuation bytes after it; `c_str()` ends at a zero byte. -/
def utf8prefix : List UInt8 → Nat → List UInt8
  | [], _ => []
  | _, 0 => []
  | byte :: rest, count + 1 =>
      if byte = 0 then []
      else
        let continuation := rest.takeWhile fun next => next &&& 0xc0 == 0x80
        byte :: continuation ++ utf8prefix (rest.drop continuation.length) count

def trimmedWord (word : List UInt8) (unique_prefix_length : Nat) : List UInt8 :=
  if word.length > unique_prefix_length then utf8prefix word unique_prefix_length else word

def lastIndexWhere {α : Type} (test : α → Bool) (values : List α) : Option Nat :=
  (values.reverse.findIdx? test).map fun back => values.length - 1 - back

namespace Base

def wordIndex (language : Base) (word : List UInt8) : Option Nat :=
  lastIndexWhere (fun entry => utf8 entry == word) language.word_list

def trimmedIndex (language : Base) (trimmed : List UInt8) : Option Nat :=
  lastIndexWhere (fun entry => trimmedWord (utf8 entry) language.unique_prefix_length == trimmed)
    language.word_list

end Base

end Language

open Dynex.Language

namespace Crypto.ElectrumWords

def crc32Byte (crc : UInt32) (byte : UInt8) : UInt32 :=
  (List.range 8).foldl (fun crc _ => if crc &&& 1 == 1 then (crc >>> 1) ^^^ 0xEDB88320 else crc >>> 1)
    (crc ^^^ byte.toUInt32)

def crc32 (bytes : List UInt8) : UInt32 :=
  bytes.foldl crc32Byte 0xFFFFFFFF ^^^ 0xFFFFFFFF

example : crc32 [49, 50, 51, 52, 53, 54, 55, 56, 57] = 0xCBF43926 := by decide +kernel

def create_checksum_index (word_list : List (List UInt8)) (unique_prefix_length : Nat) : Nat :=
  let trimmed_words := (word_list.map fun word => trimmedWord word unique_prefix_length).flatten
  (crc32 trimmed_words).toNat % seed_length

/-- `checksum_test(seed, unique_prefix_length)`: the last word against the word the checksum
index picks among the others, both trimmed. -/
def checksum_test (seed : List (List UInt8)) (unique_prefix_length : Nat) : Bool :=
  let last_word := seed.getLastD []
  let seed := seed.dropLast
  let checksum := seed.getD (create_checksum_index seed unique_prefix_length) []
  trimmedWord checksum unique_prefix_length == trimmedWord last_word unique_prefix_length

/-- The inner loop of `find_seed_language` for one language: the index of every word, looked up
by its prefix when the seed has a checksum, or `none` at the first word not found. -/
def matchSeed (language : Base) (seed : List (List UInt8)) (has_checksum : Bool) :
    Option (List Nat) :=
  seed.mapM fun word =>
    if has_checksum then language.trimmedIndex ( utf8prefix word language.unique_prefix_length)
    else language.wordIndex word

def find_seed_language (languages : List Base) (seed : List (List UInt8)) (has_checksum : Bool) :
    Option (List Nat × Base) :=
  go languages none
where
  go : List Base → Option Base → Option (List Nat × Base)
    | [], fallback => fallback.map fun language => ([], language)
    | language :: rest, fallback =>
        match matchSeed language seed has_checksum with
        | none => go rest fallback
        | some matched_indices =>
            if has_checksum && !checksum_test seed language.unique_prefix_length then
              go rest (some language)
            else some (matched_indices, language)

/-- One round of the loop of `words_to_bytes`: `val` from three indices, in `uint32_t`, and
`false` unless `val % word_list_length == w1`. -/
def decodeTriple (word_list_length w1 w2 w3 : UInt32) : Option UInt32 :=
  let val := w1 + word_list_length * (((word_list_length - w1) + w2) % word_list_length) +
    word_list_length * word_list_length * (((word_list_length - w2) + w3) % word_list_length)
  if val % word_list_length == w1 then some val else none

/-- One round of the loop of `bytes_to_words`: the three indices of a `uint32_t`. -/
def encodeTriple (word_list_length val : UInt32) : UInt32 × UInt32 × UInt32 :=
  let w1 := val % word_list_length
  let w2 := ((val / word_list_length) + w1) % word_list_length
  let w3 := (((val / word_list_length) / word_list_length) + w2) % word_list_length
  (w1, w2, w3)

/-- The loop of `words_to_bytes` over the indices three at a time: the bytes `memcpy` writes,
four a triple. -/
def decodeIndices (word_list_length : UInt32) : List Nat → Option (List UInt8)
  | w1 :: w2 :: w3 :: rest => do
      let val ← decodeTriple word_list_length (UInt32.ofNat w1) (UInt32.ofNat w2) (UInt32.ofNat w3)
      let tail ← decodeIndices word_list_length rest
      pure (Codec.leBytes 4 val.toNat ++ tail)
  | _ => some []

/-- `boost::split(seed, words, is_any_of(" "), token_compress_on)`: the pieces between spaces, a
run of spaces splitting once, so that only the first and the last piece may be empty. -/
def splitCompressed (text : List UInt8) : List (List UInt8) :=
  match text.splitOn 32 with
  | first :: rest@(_ :: _) => first :: (rest.dropLast.filter (· ≠ []) ++ [rest.getLastD []])
  | pieces => pieces

/-- `words_to_bytes(words, dst, language_name)`: the 32 bytes of the key and the language's name,
or `none` where it returns `false`. -/
def words_to_bytes (languages : List Base) (words : List UInt8) : Option (List UInt8 × String) :=
  let seed := splitCompressed (Common.trim words)
  if seed.length ≠ seed_length / 2 ∧ seed.length ≠ seed_length ∧ seed.length ≠ seed_length + 1 then
    none
  else
    let has_checksum := seed.length == seed_length + 1
    match find_seed_language languages seed has_checksum with
    | none => none
    | some (matched_indices, language) =>
        let word_list_length := UInt32.ofNat language.word_list.length
        let checked :=
          if has_checksum then
            if checksum_test seed language.unique_prefix_length then some seed.dropLast else none
          else some seed
        match checked with
        | none => none
        | some seed =>
            match decodeIndices word_list_length (matched_indices.take (seed.length / 3 * 3)) with
            | none => none
            | some dst =>
                -- a 12-word seed fills 16 bytes, which `memcpy` copies into the other 16
                let dst := if seed.length = seed_length / 2 then dst ++ dst else dst
                some (dst, language.language_name)

/-- `Crypto::SecretKey`: 32 bytes. -/
structure SecretKey where
  data : List UInt8
  size : data.length = 32

def sizeofSecretKey : Nat := 32

def fourByteWords : List UInt8 → List UInt32
  | a :: b :: c :: d :: rest => UInt32.ofNat (Codec.leValue [a, b, c, d]) :: fourByteWords rest
  | _ => []

/-- The loop of `bytes_to_words`: for each value, its three words each followed by a space
(the last by the loop's `words += ' '`), and the words kept in `words_store`. -/
def encodeWords (word_list : List String) (word_list_length : UInt32) :
    List UInt32 → List UInt8 × List (List UInt8) → List UInt8 × List (List UInt8)
  | [], state => state
  | val :: rest, (words, words_store) =>
      let (w1, w2, w3) := encodeTriple word_list_length val
      let word := fun (w : UInt32) => utf8 (word_list.getD w.toNat "")
      encodeWords word_list word_list_length rest
        (words ++ word w1 ++ [32] ++ word w2 ++ [32] ++ word w3 ++ [32],
          words_store ++ [word w1, word w2, word w3])

/-- `bytes_to_words(src, words, language_name)`: `words` with the seed appended, or `none` where
it returns `false`. -/
def bytes_to_words (languages : List Base) (src : SecretKey) (words : List UInt8)
    (language_name : String) : Option (List UInt8) :=
  if sizeofSecretKey % 4 ≠ 0 ∨ sizeofSecretKey = 0 then none
  else
    match languages.find? (·.language_name == language_name) with
    | none => none
    | some language =>
        let word_list_length := UInt32.ofNat language.word_list.length
        let (words, words_store) :=
          encodeWords language.word_list word_list_length (fourByteWords src.data) (words, [])
        -- `words.pop_back()`, then the checksum word after a space
        let checksum :=
          words_store.getD (create_checksum_index words_store language.unique_prefix_length) []
        some (words.dropLast ++ 32 :: checksum)

end Crypto.ElectrumWords

end Dynex
