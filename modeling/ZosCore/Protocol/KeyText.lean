import Mathlib.Data.Vector.Basic
import ZosCore.Protocol.Base58

/-!
Keys and addresses as text: `utilities/key_conversion.cpp`, `protocol/types.cpp`,
`protocol/address.cpp`.

Each is the bytes of the key with a checksum, in base 58. The hash functions are parameters.

* `keyToWif`, `wifToKey`: private keys. **`wif_keys`**: what is read, and of which strings.
* `KeyFormat.toString`, `KeyFormat.ofString`: public keys and extended keys, of which the fields are
  packed in different orders. **`key_texts`**.
* `addressToString`, `addressOfString`: addresses. **`address_texts`**.
-/

namespace ZosCore

/-- So many bytes. -/
abbrev Bytes (n : ℕ) := List.Vector UInt8 n

/-- `memset` to zero, and `memcpy` of as many bytes as there are and fit. -/
def copyBytes (n : ℕ) (l : List UInt8) : Bytes n :=
  ⟨(l ++ List.replicate n 0).take n, by simp⟩

/-- The first four bytes of a hash. -/
def checksum {n : ℕ} (hash : Bytes n) : List UInt8 := hash.toList.take 4

lemma copyBytes_self {n : ℕ} (k : Bytes n) : copyBytes n k.toList = k := by
  refine List.Vector.eq _ _ ?_
  simp [copyBytes, List.Vector.toList, k.2]

/-! ### Hexadecimal strings -/

/-- The exceptions of the conversions. -/
inductive KeyError where
  | invalidHexCharacter
  | assertion

/-- `to_hex[c]` -/
def hexChar (n : UInt8) : Char :=
  ['0', '1', '2', '3', '4', '5', '6', '7', '8', '9', 'a', 'b', 'c', 'd', 'e', 'f'].getD n.toNat '0'

/-- `to_hex` -/
def toHex (data : List UInt8) : List Char :=
  data.flatMap fun c : UInt8 => [hexChar (c >>> 4), hexChar (c &&& 0x0f)]

/-- `from_hex` of a character. -/
def hexValue (c : Char) : Except KeyError UInt8 :=
  if '0' ≤ c ∧ c ≤ '9' then .ok (.ofNat (c.toNat - '0'.toNat))
  else if 'a' ≤ c ∧ c ≤ 'f' then .ok (.ofNat (c.toNat - 'a'.toNat + 10))
  else if 'A' ≤ c ∧ c ≤ 'F' then .ok (.ofNat (c.toNat - 'A'.toNat + 10))
  else .error .invalidHexCharacter

/-- `from_hex`, with the number of bytes there is room for. -/
def fromHex : List Char → ℕ → Except KeyError (List UInt8)
  | c :: d :: rest, n + 1 => do
      let high ← hexValue c
      let low ← hexValue d
      let data ← fromHex rest n
      return (high <<< 4 ||| low) :: data
  | [c], _ + 1 => do
      let high ← hexValue c
      return [high <<< 4]
  | _, _ => .ok []

/-- `from_variant` of a string, to bytes. -/
def bytesOfVariant (str : List Char) : Except KeyError (List UInt8) := do
  let data ← fromHex str (str.length / 2)
  if data.length = str.length / 2 then return data else throw .assertion

lemma hexValue_hexChar : ∀ n < 16, hexValue (hexChar (.ofNat n)) = .ok (.ofNat n) := by
  intro n hn
  interval_cases n <;> rfl

/-- The two halves of a byte. -/
lemma halves_byte (a : UInt8) : ∃ high < 16, ∃ low < 16, a >>> 4 = .ofNat high ∧
    a &&& 0x0f = .ofNat low ∧ UInt8.ofNat high <<< 4 ||| UInt8.ofNat low = a := by
  have hhigh : (a >>> 4).toNat < 16 := by
    have := a.toNat_lt
    simp only [UInt8.toNat_shiftRight, UInt8.reduceToNat, Nat.shiftRight_eq_div_pow, Nat.reduceMod,
      Nat.reducePow]
    omega
  have hlow : (a &&& 0x0f).toNat < 16 := by
    have hle : a.toNat &&& 15 ≤ 15 := Nat.and_le_right
    simpa [UInt8.toNat_and] using Nat.lt_succ_of_le hle
  refine ⟨_, hhigh, _, hlow, UInt8.ofNat_toNat.symm, UInt8.ofNat_toNat.symm, ?_⟩
  simp only [UInt8.ofNat_toNat]
  refine UInt8.toBitVec_inj.mp (BitVec.eq_of_getLsbD_eq fun i hi => ?_)
  interval_cases i <;> simp

/-- What is written in hexadecimal is read back. -/
lemma fromHex_toHex (data : List UInt8) : fromHex (toHex data) data.length = .ok data := by
  induction data with
  | nil => rfl
  | cons a data ih =>
      obtain ⟨high, hhigh, low, hlow, h1, h2, ha⟩ := halves_byte a
      have hcons : toHex (a :: data) = hexChar (.ofNat high) :: hexChar (.ofNat low) :: toHex data := by
        rw [← h1, ← h2]
        rfl
      rw [hcons, List.length_cons, fromHex, hexValue_hexChar high hhigh, hexValue_hexChar low hlow, ih]
      simp [bind, Except.bind, pure, Except.pure, ha]

lemma length_toHex (data : List UInt8) : (toHex data).length = 2 * data.length := by
  induction data with
  | nil => rfl
  | cons a data ih =>
      simp only [toHex, List.flatMap_cons, List.length_append, List.length_cons, List.length_nil] at ih ⊢
      omega

lemma bytesOfVariant_toHex (data : List UInt8) : bytesOfVariant (toHex data) = .ok data := by
  have hlen : (toHex data).length / 2 = data.length := by
    rw [length_toHex]
    omega
  rw [bytesOfVariant, hlen, fromHex_toHex]
  simp [bind, Except.bind, pure, Except.pure]

/-! ### Private keys -/

section

variable (sha256 : List UInt8 → Bytes 32)

/-- `key_to_wif` -/
def keyToWif (secret : Bytes 32) : List Char :=
  let data := 0x80 :: secret.toList
  let digest := sha256 data
  let digest := sha256 digest.toList
  encodeBase58 (data ++ checksum digest)

/-- `wif_to_key`, with `none` for an empty `optional`. The key is made from a variant, which holds its
bytes as a hexadecimal string. -/
def wifToKey (wifKey : List Char) : Except KeyError (Option (Bytes 32)) :=
  match decodeBase58 wifKey with
  | none => .ok none
  | some wifBytes =>
      if wifBytes.length < 5 then .ok none
      else do
        let keyBytes := (wifBytes.drop 1).take (wifBytes.length - 4 - 1)
        let data ← bytesOfVariant (toHex keyBytes)
        let key := copyBytes 32 data
        let check := sha256 (wifBytes.take (wifBytes.length - 4))
        let check2 := sha256 check.toList
        if checksum check = wifBytes.drop (wifBytes.length - 4) ∨
            checksum check2 = wifBytes.drop (wifBytes.length - 4) then return some key
        else return none

variable {sha256} {version : UInt8} {payload check : List UInt8} {key : Bytes 32} {s : List Char}

/-- At least five bytes are a version, a payload and a checksum. -/
lemma exists_payload {wifBytes : List UInt8} (h : 5 ≤ wifBytes.length) :
    ∃ version payload check, wifBytes = version :: payload ++ check ∧ check.length = 4 := by
  cases wifBytes with
  | nil => simp at h
  | cons version rest =>
      rw [List.length_cons] at h
      refine ⟨version, rest.take (rest.length - 4), rest.drop (rest.length - 4), ?_, ?_⟩
      · rw [List.cons_append, List.take_append_drop]
      · rw [List.length_drop]
        omega

/-- What is made of a version, a payload and a checksum. -/
lemma wifToKey_eq (hs : decodeBase58 s = some (version :: payload ++ check)) (hcheck : check.length = 4) :
    wifToKey sha256 s = .ok (if checksum (sha256 (version :: payload)) = check ∨
        checksum (sha256 (sha256 (version :: payload)).toList) = check then some (copyBytes 32 payload)
      else none) := by
  have hlen : (version :: payload ++ check).length = payload.length + 5 := by
    simp [hcheck]
  have hfront : (version :: payload ++ check).take (payload.length + 5 - 4) = version :: payload := by
    simp
  have hback : (version :: payload ++ check).drop (payload.length + 5 - 4) = check := by
    simp
  have hkey : ((version :: payload ++ check).drop 1).take (payload.length + 5 - 4 - 1) = payload := by
    simp
  rw [wifToKey, hs]
  simp only [hlen, hfront, hback, hkey, bytesOfVariant_toHex]
  rw [if_neg (by omega)]
  simp only [bind, Except.bind, pure, Except.pure]
  split_ifs <;> rfl

/-- **Private keys as text.** Nothing is thrown; a key is read back from its own text; and a key is read
exactly of the strings whose bytes are a first byte, whatever it is, a payload, and the first four bytes
of the hash or of the double hash of these, the key being the payload cut or filled up with zeros to 32
bytes. -/
theorem wif_keys (sha256 : List UInt8 → Bytes 32) :
    (∀ key, wifToKey sha256 (keyToWif sha256 key) = .ok (some key)) ∧
      (∀ s, ∃ result, wifToKey sha256 s = .ok result) ∧
      ∀ s key, wifToKey sha256 s = .ok (some key) ↔ ∃ version payload check,
        decodeBase58 s = some (version :: payload ++ check) ∧
          (check = checksum (sha256 (version :: payload)) ∨
            check = checksum (sha256 (sha256 (version :: payload)).toList)) ∧
          key = copyBytes 32 payload := by
  have hlen (hash : Bytes 32) : (checksum hash).length = 4 := by
    simp [checksum]
  refine ⟨fun key => ?_, fun s => ?_, fun s key => ⟨fun h => ?_, ?_⟩⟩
  · have hdecode : decodeBase58 (keyToWif sha256 key) = some (0x80 :: key.toList ++
        checksum (sha256 (sha256 (0x80 :: key.toList)).toList)) :=
      decodeBase58_encodeBase58 _
    rw [wifToKey_eq hdecode (hlen _), if_pos (.inr rfl), copyBytes_self]
  · cases hs : decodeBase58 s with
    | none => exact ⟨none, by rw [wifToKey, hs]⟩
    | some wifBytes =>
        by_cases hshort : wifBytes.length < 5
        · exact ⟨none, by rw [wifToKey, hs]; exact if_pos hshort⟩
        · obtain ⟨version, payload, check, rfl, hcheck⟩ := exists_payload (not_lt.mp hshort)
          exact ⟨_, wifToKey_eq hs hcheck⟩
  · cases hs : decodeBase58 s with
    | none => rw [wifToKey, hs] at h; cases h
    | some wifBytes =>
        by_cases hshort : wifBytes.length < 5
        · rw [wifToKey, hs] at h
          simp [hshort] at h
        · obtain ⟨version, payload, check, rfl, hcheck⟩ := exists_payload (not_lt.mp hshort)
          rw [wifToKey_eq hs hcheck] at h
          split_ifs at h with hsum
          · obtain rfl := Option.some.inj (Except.ok.inj h)
            exact ⟨version, payload, check, rfl, hsum.imp Eq.symm Eq.symm, rfl⟩
          · cases Except.ok.inj h
  · rintro ⟨version, payload, check, hs, hsum, rfl⟩
    have hcheck : check.length = 4 := by
      rcases hsum with rfl | rfl <;> exact hlen _
    rw [wifToKey_eq hs hcheck, if_pos (hsum.imp Eq.symm Eq.symm)]

end

/-! ### Public keys, and extended keys -/

/-- `GRAPHENE_ADDRESS_PREFIX` -/
def addressPrefix : List Char := ['Z', 'O', 'S']

/-- The order in which the fields of a `binary_key` are packed. -/
inductive KeyFields where
  | dataCheck
  | checkData

/-- A key of `length` bytes, and how it is packed. -/
structure KeyFormat where
  length : ℕ
  fields : KeyFields

/-- `public_key_type` -/
def publicKeyType : KeyFormat := ⟨33, .dataCheck⟩

/-- `extended_public_key_type` -/
def extendedPublicKeyType : KeyFormat := ⟨78, .checkData⟩

/-- `extended_private_key_type` -/
def extendedPrivateKeyType : KeyFormat := ⟨78, .checkData⟩

/-- `binary_key`: the check is the first word of a hash, in the bytes it has in memory. -/
structure BinaryKey (n : ℕ) where
  data : Bytes n
  check : Bytes 4

namespace KeyFormat

variable (f : KeyFormat) (ripemd160 : List UInt8 → Bytes 20)

/-- `fc::raw::pack` of a `binary_key`. -/
def pack (k : BinaryKey f.length) : List UInt8 :=
  match f.fields with
  | .dataCheck => k.data.toList ++ k.check.toList
  | .checkData => k.check.toList ++ k.data.toList

/-- `fc::raw::unpack` of a `binary_key`, with `none` where the bytes run out. Of no bytes a key of zeros
is made, and what is left over is not looked at. -/
def unpack (bin : List UInt8) : Option (BinaryKey f.length) :=
  if bin = [] then some ⟨copyBytes f.length [], copyBytes 4 []⟩
  else if bin.length < f.length + 4 then none
  else match f.fields with
    | .dataCheck => some ⟨copyBytes f.length bin, copyBytes 4 (bin.drop f.length)⟩
    | .checkData => some ⟨copyBytes f.length (bin.drop 4), copyBytes 4 bin⟩

/-- `ripemd160::hash( data )._hash[0]` -/
def checkOf {n : ℕ} (data : Bytes n) : Bytes 4 := copyBytes 4 (ripemd160 data.toList).toList

/-- `operator std::string` -/
def toString (data : Bytes f.length) : List Char :=
  addressPrefix ++ encodeBase58 (f.pack ⟨data, checkOf ripemd160 data⟩)

/-- What the constructor from a string does behind the prefix, with `none` for an exception. -/
def ofBase58 (base58Str : List Char) : Option (Bytes f.length) := do
  let bin ← decodeBase58 base58Str
  let binKey ← f.unpack bin
  if checkOf ripemd160 binKey.data = binKey.check then some binKey.data else none

/-- The constructor from a string. -/
def ofString (base58Str : List Char) : Option (Bytes f.length) :=
  if base58Str.length ≤ addressPrefix.length then none
  else if base58Str.take addressPrefix.length ≠ addressPrefix then none
  else f.ofBase58 ripemd160 (base58Str.drop addressPrefix.length)

variable {f ripemd160} {s : List Char} {data : Bytes f.length} {bin : List UInt8}

lemma take_copyBytes {n : ℕ} (k : Bytes n) (rest : List UInt8) : copyBytes n (k.toList ++ rest) = k := by
  refine List.Vector.eq _ _ ?_
  obtain ⟨l, rfl⟩ := k
  simp [copyBytes, List.Vector.toList]

/-- Enough bytes are those of a key, and others behind them. -/
lemma exists_pack (h : f.length + 4 ≤ bin.length) : ∃ k rest, bin = f.pack k ++ rest := by
  obtain ⟨length, fields⟩ := f
  cases fields
  · refine ⟨⟨⟨bin.take length, ?_⟩, ⟨(bin.drop length).take 4, ?_⟩⟩, bin.drop (length + 4), ?_⟩
    · simp only at h ⊢
      rw [List.length_take]
      omega
    · simp only at h ⊢
      rw [List.length_take, List.length_drop]
      omega
    · simp [pack, List.Vector.toList, ← List.drop_drop]
  · refine ⟨⟨⟨(bin.drop 4).take length, ?_⟩, ⟨bin.take 4, ?_⟩⟩, bin.drop (4 + length), ?_⟩
    · simp only at h ⊢
      rw [List.length_take, List.length_drop]
      omega
    · simp only at h ⊢
      rw [List.length_take]
      omega
    · simp [pack, List.Vector.toList, ← List.drop_drop]

/-- A key is unpacked from its bytes, whatever is behind them. -/
lemma unpack_pack (k : BinaryKey f.length) (rest : List UInt8) : f.unpack (f.pack k ++ rest) = some k := by
  obtain ⟨length, fields⟩ := f
  obtain ⟨data, check⟩ := k
  have hd : data.toList.length = length := data.2
  have hc : check.toList.length = 4 := check.2
  have hlen : (pack ⟨length, fields⟩ ⟨data, check⟩).length = length + 4 := by
    cases fields <;> simp [pack, hd, hc, Nat.add_comm]
  have hlong : ¬ (pack ⟨length, fields⟩ ⟨data, check⟩ ++ rest).length < length + 4 := by
    rw [List.length_append, hlen]
    omega
  have hne : pack ⟨length, fields⟩ ⟨data, check⟩ ++ rest ≠ [] := by
    rintro hnil
    rw [hnil] at hlong
    simp at hlong
  rw [unpack, if_neg hne, if_neg hlong]
  cases fields
  · have hdrop : (data.toList ++ (check.toList ++ rest)).drop length = check.toList ++ rest :=
      List.drop_left' hd
    simp only [pack, List.append_assoc, take_copyBytes, hdrop]
  · have hdrop : (check.toList ++ (data.toList ++ rest)).drop 4 = data.toList ++ rest :=
      List.drop_left' hc
    simp only [pack, List.append_assoc, take_copyBytes, hdrop]

/-- A key is unpacked of no other bytes, but for the key that is made of none. -/
lemma unpack_eq_some_iff {k : BinaryKey f.length} : f.unpack bin = some k ↔
    (bin = [] ∧ k = ⟨copyBytes f.length [], copyBytes 4 []⟩) ∨ ∃ rest, bin = f.pack k ++ rest := by
  constructor
  · intro h
    by_cases hnil : bin = []
    · rw [unpack, if_pos hnil] at h
      exact .inl ⟨hnil, (Option.some.inj h).symm⟩
    · by_cases hshort : bin.length < f.length + 4
      · rw [unpack, if_neg hnil, if_pos hshort] at h
        cases h
      · obtain ⟨k', rest, rfl⟩ := exists_pack (not_lt.mp hshort)
        rw [unpack_pack] at h
        obtain rfl := Option.some.inj h
        exact .inr ⟨rest, rfl⟩
  · rintro (⟨rfl, rfl⟩ | ⟨rest, rfl⟩)
    · rw [unpack, if_pos rfl]
    · exact unpack_pack k rest

end KeyFormat

/-- What is read behind the prefix, where there is one and something behind it. -/
lemma behindPrefix_iff {β : Type} {g : List Char → β} {s : List Char} {d b : β} (hb : d ≠ b) :
    (if s.length ≤ addressPrefix.length then d
      else if s.take addressPrefix.length ≠ addressPrefix then d
      else g (s.drop addressPrefix.length)) = b ↔
    ∃ text, text ≠ [] ∧ s = addressPrefix ++ text ∧ g text = b := by
  constructor
  · intro h
    split_ifs at h with hshort hprefix
    · exact absurd h hb
    · exact absurd h hb
    · refine ⟨s.drop addressPrefix.length, fun hnil => hshort (List.drop_eq_nil_iff.mp hnil), ?_, h⟩
      calc s = s.take addressPrefix.length ++ s.drop addressPrefix.length :=
            (List.take_append_drop _ s).symm
        _ = addressPrefix ++ s.drop addressPrefix.length := by rw [not_not.mp hprefix]
  · rintro ⟨text, htext, rfl, h⟩
    have hlong : ¬ (addressPrefix ++ text).length ≤ addressPrefix.length := fun hle => by
      rw [List.length_append] at hle
      exact htext (List.length_eq_zero_iff.mp (by omega))
    rw [if_neg hlong, if_neg (by simp), List.drop_left]
    exact h

/-- No bytes are encoded as the empty string but none. -/
lemma encodeBase58_ne_nil {data : List UInt8} (h : data ≠ []) : encodeBase58 data ≠ [] := by
  intro hnil
  have hdecode := decodeBase58_encodeBase58 data
  rw [hnil] at hdecode
  exact h (Option.some.inj hdecode).symm

namespace KeyFormat

variable {f : KeyFormat} {ripemd160 : List UInt8 → Bytes 20}

lemma pack_ne_nil (k : BinaryKey f.length) (rest : List UInt8) : f.pack k ++ rest ≠ [] := by
  obtain ⟨length, fields⟩ := f
  have hc : k.check.toList.length = 4 := k.check.2
  intro hnil
  have hlen := congrArg List.length hnil
  cases fields <;>
    · simp only [pack, List.length_append, List.length_nil, hc] at hlen
      omega

/-- **Keys as text.** A key is read back from its own text; and a key is read exactly of the strings that
have, behind the prefix, the key with its checksum in base 58, whatever bytes are behind these. Of spaces
alone the key of zeros would be read if its checksum were zero. -/
theorem key_texts (f : KeyFormat) (ripemd160 : List UInt8 → Bytes 20) :
    (∀ data, f.ofString ripemd160 (f.toString ripemd160 data) = some data) ∧
      ∀ s data, f.ofString ripemd160 s = some data ↔ ∃ text, text ≠ [] ∧ s = addressPrefix ++ text ∧
        ((∃ rest, decodeBase58 text = some (f.pack ⟨data, checkOf ripemd160 data⟩ ++ rest)) ∨
          (decodeBase58 text = some [] ∧ data = copyBytes f.length [] ∧
            checkOf ripemd160 data = copyBytes 4 [])) := by
  refine (and_iff_right_of_imp fun hiff data => (hiff _ data).mpr ⟨_, ?_, rfl, .inl ⟨[], ?_⟩⟩).mpr
    fun s data => ?_
  · rw [ofString, behindPrefix_iff (Option.some_ne_none data).symm]
    refine exists_congr fun text => and_congr_right fun _ => and_congr_right fun _ => ?_
    simp only [ofBase58, bind, Option.bind_eq_some_iff, unpack_eq_some_iff]
    constructor
    · rintro ⟨bin, hbin, ⟨data', check⟩, hk, h⟩
      split_ifs at h with hcheck
      obtain rfl := Option.some.inj h
      simp only at hcheck
      rcases hk with ⟨rfl, hzero⟩ | ⟨rest, rfl⟩
      · obtain ⟨rfl, rfl⟩ := BinaryKey.mk.inj hzero
        exact .inr ⟨hbin, rfl, hcheck⟩
      · exact .inl ⟨rest, hcheck ▸ hbin⟩
    · rintro (⟨rest, hbin⟩ | ⟨hbin, rfl, hcheck⟩)
      · exact ⟨_, hbin, _, .inr ⟨rest, rfl⟩, if_pos rfl⟩
      · exact ⟨_, hbin, _, .inl ⟨rfl, rfl⟩, if_pos hcheck⟩
  · refine encodeBase58_ne_nil fun hnil => ?_
    exact pack_ne_nil ⟨data, checkOf ripemd160 data⟩ [] (by simpa using hnil)
  · rw [List.append_nil]
    exact decodeBase58_encodeBase58 _

end KeyFormat

/-! ### Addresses -/

section

variable (ripemd160 : List UInt8 → Bytes 20)

/-- `address::operator std::string` -/
def addressToString (addr : Bytes 20) : List Char :=
  addressPrefix ++ encodeBase58 (addr.toList ++ checksum (ripemd160 addr.toList))

/-- What `address::is_valid` does behind the prefix. -/
def isValidBase58 (base58Str : List Char) : Bool :=
  match decodeBase58 base58Str with
  | none => false
  | some v =>
      if v.length ≠ 20 + 4 then false
      else (v.drop 20).take 4 = checksum (ripemd160 (v.take (v.length - 4)))

/-- `address::is_valid` -/
def isValidAddress (base58Str : List Char) : Bool :=
  if base58Str.length ≤ addressPrefix.length then false
  else if base58Str.take addressPrefix.length ≠ addressPrefix then false
  else isValidBase58 ripemd160 (base58Str.drop addressPrefix.length)

/-- The constructor of an `address` from a string, with `none` for an exception. -/
def addressOfString (base58Str : List Char) : Option (Bytes 20) :=
  if isValidAddress ripemd160 base58Str then
    (decodeBase58 (base58Str.drop addressPrefix.length)).map fun v =>
      copyBytes 20 (v.take (v.length - 4))
  else none

variable {s text : List Char}

/-- An address and its checksum are of 24 bytes, of which they are the first 20 and the others. -/
lemma address_parts (addr : Bytes 20) :
    (addr.toList ++ checksum (ripemd160 addr.toList)).length = 24 ∧
      (addr.toList ++ checksum (ripemd160 addr.toList)).take 20 = addr.toList ∧
        ((addr.toList ++ checksum (ripemd160 addr.toList)).drop 20).take 4 =
          checksum (ripemd160 addr.toList) := by
  have haddr : addr.toList.length = 20 := addr.2
  have hcheck : (checksum (ripemd160 addr.toList)).length = 4 := by simp [checksum]
  refine ⟨by simp [haddr, hcheck], List.take_left' haddr, ?_⟩
  rw [List.drop_left' haddr, List.take_of_length_le hcheck.le]

variable {ripemd160} in
/-- What is valid behind the prefix is an address with its checksum. -/
lemma isValidBase58_iff : isValidBase58 ripemd160 text = true ↔ ∃ addr : Bytes 20,
    decodeBase58 text = some (addr.toList ++ checksum (ripemd160 addr.toList)) := by
  rw [isValidBase58]
  constructor
  · intro h
    cases hv : decodeBase58 text with
    | none => simp [hv] at h
    | some v =>
        simp only [hv] at h
        split_ifs at h with hlen
        have hlen : v.length = 24 := not_not.mp hlen
        have hcheck : (v.drop 20).take 4 = v.drop 20 := by
          refine List.take_of_length_le ?_
          rw [List.length_drop, hlen]
        have hsum := of_decide_eq_true h
        rw [hcheck, hlen] at hsum
        refine ⟨⟨v.take 20, by simp [hlen]⟩, congrArg some ?_⟩
        calc v = v.take 20 ++ v.drop 20 := (List.take_append_drop 20 v).symm
          _ = v.take 20 ++ checksum (ripemd160 (v.take 20)) := by rw [hsum]
  · rintro ⟨addr, hv⟩
    obtain ⟨hlen, haddr, hcheck⟩ := address_parts ripemd160 addr
    simp only [hv, hlen, haddr, hcheck, decide_true, ne_eq, not_true_eq_false, if_false]

/-- **Addresses as text.** An address is read back from its own text; and an address is read exactly of
the strings that have, behind the prefix, the address with its checksum in base 58. -/
theorem address_texts (ripemd160 : List UInt8 → Bytes 20) :
    (∀ addr, addressOfString ripemd160 (addressToString ripemd160 addr) = some addr) ∧
      ∀ s addr, addressOfString ripemd160 s = some addr ↔ ∃ text, text ≠ [] ∧ s = addressPrefix ++ text ∧
        decodeBase58 text = some (addr.toList ++ checksum (ripemd160 addr.toList)) := by
  refine (and_iff_right_of_imp fun hiff addr =>
    (hiff _ addr).mpr ⟨_, encodeBase58_ne_nil fun hnil => ?_, rfl, ?_⟩).mpr fun s addr => ?_
  · have hcopy (a : Bytes 20) : copyBytes 20 (((a.toList ++ checksum (ripemd160 a.toList))).take 20) = a := by
      rw [(address_parts ripemd160 a).2.1, copyBytes_self]
    constructor
    · intro h
      rw [addressOfString] at h
      split_ifs at h with hvalid
      rw [isValidAddress, behindPrefix_iff (by decide)] at hvalid
      obtain ⟨text, htext, rfl, hvalid⟩ := hvalid
      obtain ⟨a, ha⟩ := isValidBase58_iff.mp hvalid
      rw [List.drop_left, ha, Option.map_some, (address_parts ripemd160 a).1] at h
      obtain rfl : a = addr := (hcopy a).symm.trans (Option.some.inj h)
      exact ⟨text, htext, rfl, ha⟩
    · rintro ⟨text, htext, rfl, ha⟩
      have hvalid : isValidAddress ripemd160 (addressPrefix ++ text) = true := by
        rw [isValidAddress, behindPrefix_iff (by decide)]
        exact ⟨text, htext, rfl, isValidBase58_iff.mpr ⟨addr, ha⟩⟩
      rw [addressOfString, if_pos hvalid, List.drop_left, ha, Option.map_some,
        (address_parts ripemd160 addr).1]
      exact congrArg some (hcopy addr)
  · have hlen := (address_parts ripemd160 addr).1
    rw [hnil] at hlen
    cases hlen
  · exact decodeBase58_encodeBase58 _

end

end ZosCore
