import Mathlib.Data.List.GetD
import Mathlib.Data.List.TakeWhile
import ZosCore.Lib.Radix
import ZosCore.Protocol.AmountStrings

/-!
`fc/crypto/base58.cpp`: byte strings as text in base 58.

The bytes are taken for a number in base 256, most significant byte first; leading zero bytes are leading
digits zero. The big numbers of the code are natural numbers: none of them is negative.

* `encodeBase58`, `decodeBase58`: the two functions, with the bytes of a number as they come out of
  `getvch`.
* `encodeBase58_eq`, `decodeBase58_numeral`: they change the base of a numeral.
* **`decodeBase58_iff`**: what is decoded, and of which strings.
-/

namespace ZosCore

/-- `pszBase58` -/
def pszBase58 : List Char :=
  ['1', '2', '3', '4', '5', '6', '7', '8', '9', 'A', 'B', 'C', 'D', 'E', 'F', 'G', 'H', 'J', 'K', 'L',
    'M', 'N', 'P', 'Q', 'R', 'S', 'T', 'U', 'V', 'W', 'X', 'Y', 'Z', 'a', 'b', 'c', 'd', 'e', 'f', 'g',
    'h', 'i', 'j', 'k', 'm', 'n', 'o', 'p', 'q', 'r', 's', 't', 'u', 'v', 'w', 'x', 'y', 'z']

/-- `pszBase58[c]` -/
def base58Char (d : ℕ) : Char := pszBase58.getD d '1'

/-- `strchr(pszBase58, *p) - pszBase58` -/
def base58Digit (c : Char) : Option ℕ := pszBase58.idxOf? c

/-! ### Encoding -/

/-- `CBigNum::setvch`, of data that ends with a zero byte, so that there is no sign. -/
def setvch (vch : List UInt8) : ℕ := Nat.ofDigits 256 (vch.map UInt8.toNat)

/-- The loop `while (bn > bn0)`. -/
def encodeLoop (bn : ℕ) : List Char :=
  if h : bn = 0 then [] else base58Char (bn % 58) :: encodeLoop (bn / 58)
termination_by bn
decreasing_by exact Nat.div_lt_self (Nat.pos_of_ne_zero h) (by norm_num)

/-- `EncodeBase58`, `to_base58` -/
def encodeBase58 (data : List UInt8) : List Char :=
  let vchTmp := data.reverse ++ [0]
  let str := encodeLoop (setvch vchTmp)
  let str := str ++ List.replicate (data.takeWhile (· = 0)).length (base58Char 0)
  str.reverse

/-! ### Decoding -/

/-- `CBigNum::getvch`: the bytes of a number, least significant first, with a zero byte behind if the sign
bit would be set. -/
def getvch (bn : ℕ) : List UInt8 :=
  let vch := (Nat.digits 256 bn).map UInt8.ofNat
  match vch.getLast? with
  | some c => if 0x80 ≤ c then vch ++ [0] else vch
  | none => []

/-- `Trim off sign byte if present` -/
def trimSign (vch : List UInt8) : List UInt8 :=
  match vch.reverse with
  | a :: b :: rest => if a = 0 ∧ 0x80 ≤ b then (b :: rest).reverse else vch
  | _ => vch

/-- The loop over the characters. Where one is no digit, there may be spaces up to the end. -/
def decodeLoop (bn : ℕ) : List Char → Option ℕ
  | [] => some bn
  | c :: p =>
      match base58Digit c with
      | none => if (c :: p).dropWhile isSpace = [] then some bn else none
      | some d => decodeLoop (bn * 58 + d) p

/-- `DecodeBase58`, `from_base58`, with `none` for a string that is not decoded. What is behind a zero
character is not looked at. -/
def decodeBase58 (base58Str : List Char) : Option (List UInt8) :=
  let psz := (base58Str.takeWhile (· ≠ Char.ofNat 0)).dropWhile isSpace
  (decodeLoop 0 psz).map fun bn =>
    let vchTmp := trimSign (getvch bn)
    List.replicate (psz.takeWhile (· = base58Char 0)).length 0 ++ vchTmp.reverse

/-! ### Digits -/

lemma base58Digit_base58Char : ∀ d < 58, base58Digit (base58Char d) = some d := by decide

lemma base58Char_of_base58Digit {c : Char} {d : ℕ} (h : base58Digit c = some d) :
    d < 58 ∧ base58Char d = c := by
  rw [base58Digit, List.idxOf?_eq_map_finIdxOf?_val] at h
  obtain ⟨i, hi, rfl⟩ := Option.map_eq_some_iff.mp h
  have hget := (List.finIdxOf?_eq_some_iff.mp hi).1
  refine ⟨i.isLt, ?_⟩
  rw [base58Char, List.getD_eq_getElem _ _ i.isLt]
  exact hget

/-- The digits are neither spaces nor the zero character. -/
lemma not_isSpace_base58Char : ∀ d < 58, isSpace (base58Char d) = false ∧ base58Char d ≠ Char.ofNat 0 := by
  decide

/-- A text in base 58, as digits. -/
def textOf (l : List ℕ) : List Char := l.map base58Char

/-- Bytes, as digits in base 256. -/
def digitsOf (data : List UInt8) : List ℕ := data.map UInt8.toNat

lemma digitsOf_lt (data : List UInt8) : ∀ d ∈ digitsOf data, d < 256 := by
  intro d hd
  obtain ⟨a, -, rfl⟩ := List.mem_map.mp hd
  exact a.toNat_lt

lemma digitsOf_injective : Function.Injective digitsOf :=
  List.map_injective_iff.mpr fun _ _ => UInt8.toNat_inj.mp

/-- The zero digits that a text begins with. -/
lemma takeWhile_textOf {l : List ℕ} (hl : ∀ d ∈ l, d < 58) :
    ((textOf l).takeWhile (· = base58Char 0)).length = Radix.zeros l := by
  have hiff : ∀ d < 58, (base58Char d = base58Char 0 ↔ d = 0) := by decide
  have hzeros := Radix.zeros_map (f := id) (p := (base58Char · = base58Char 0)) (l := l)
    fun d hd => by simp [hiff d (hl d hd)]
  rw [List.map_id] at hzeros
  rw [hzeros, textOf, List.takeWhile_map, List.length_map]
  rfl

/-! ### The base is changed -/

lemma encodeLoop_eq (bn : ℕ) : encodeLoop bn = textOf (Nat.digits 58 bn) := by
  induction bn using Nat.strongRecOn with
  | ind bn ih =>
      rw [encodeLoop]
      split_ifs with h
      · simp [h, textOf]
      · rw [ih _ (Nat.div_lt_self (Nat.pos_of_ne_zero h) (by norm_num)),
          Nat.digits_def' (by norm_num) (Nat.pos_of_ne_zero h)]
        rfl

lemma zeros_digitsOf (data : List UInt8) :
    (data.takeWhile (· = 0)).length = Radix.zeros (digitsOf data) := by
  refine (Radix.zeros_map fun a _ => ?_).symm
  simp [← UInt8.toNat_inj]

/-- Encoding is to change the base from 256 to 58. -/
lemma encodeBase58_eq (data : List UInt8) :
    encodeBase58 data = textOf (Radix.recode 256 58 (digitsOf data)) := by
  have hvalue : setvch (data.reverse ++ [0]) = Radix.value 256 (digitsOf data) := by
    simp [setvch, Radix.value, digitsOf, Nat.ofDigits_append]
  simp only [encodeBase58, hvalue, encodeLoop_eq, zeros_digitsOf, Radix.recode, Radix.numeral, textOf,
    List.reverse_append, List.reverse_replicate, List.map_append, List.map_replicate, List.map_reverse]

/-- The sign byte comes and goes. -/
lemma trimSign_getvch (bn : ℕ) : trimSign (getvch bn) = (Nat.digits 256 bn).map UInt8.ofNat := by
  rcases Nat.eq_zero_or_pos bn with rfl | hbn
  · simp [getvch, trimSign]
  · obtain ⟨l, d, hl⟩ : ∃ l d, Nat.digits 256 bn = l ++ [d] :=
      ⟨_, _, (List.dropLast_append_getLast (Nat.digits_ne_nil_iff_ne_zero.mpr hbn.ne')).symm⟩
    have hlt : d < 256 := Nat.digits_lt_base (by norm_num) (hl ▸ List.mem_append_right l List.mem_cons_self)
    have hd : UInt8.ofNat d ≠ 0 := fun h => by
      have hlast := Nat.getLast_digit_ne_zero 256 hbn.ne'
      have hzero : d = 0 := by
        have := congrArg UInt8.toNat h
        simpa [Nat.mod_eq_of_lt hlt] using this
      simp [hl, hzero] at hlast
    simp only [getvch, hl, List.map_append, List.map_cons, List.map_nil, List.getLast?_append,
      List.getLast?_singleton, Option.some_or]
    split_ifs with hsign
    · simp [trimSign, hsign]
    · cases l with
      | nil => simp [trimSign]
      | cons a l => 
          obtain ⟨l', b, hb⟩ : ∃ l' b, (a :: l).map UInt8.ofNat = l' ++ [b] :=
            ⟨_, _, (List.dropLast_append_getLast (by simp)).symm⟩
          rw [hb]
          simp [trimSign, hd]

lemma digitsOf_map_ofNat {l : List ℕ} (hl : ∀ d ∈ l, d < 256) : digitsOf (l.map UInt8.ofNat) = l := by
  induction l with
  | nil => rfl
  | cons d l ih =>
      have hd : (UInt8.ofNat d).toNat = d := by
        simpa using Nat.mod_eq_of_lt (hl d List.mem_cons_self)
      have htail := ih fun x hx => hl x (List.mem_cons_of_mem d hx)
      rw [digitsOf] at htail ⊢
      rw [List.map_cons, List.map_cons, hd, htail]

/-! ### What is decoded -/

lemma foldl_digits (l : List ℕ) : l.foldl (fun bn d => bn * 58 + d) 0 = Radix.value 58 l := by
  induction l using List.reverseRecOn with
  | nil => simp [Radix.value]
  | append_singleton l d ih =>
      rw [List.foldl_append, ih]
      simp [Radix.value, Nat.ofDigits_cons]
      ring

/-- The loop reads digits, and then spaces up to the end. -/
lemma decodeLoop_eq_some_iff {bn n : ℕ} {p : List Char} : decodeLoop bn p = some n ↔
    ∃ (l : List ℕ) (back : List Char), (∀ d ∈ l, d < 58) ∧ (∀ c ∈ back, isSpace c = true) ∧
      p = textOf l ++ back ∧ l.foldl (fun bn d => bn * 58 + d) bn = n := by
  induction p generalizing bn with
  | nil =>
      simp only [decodeLoop, Option.some.injEq]
      constructor
      · rintro rfl
        exact ⟨[], [], by simp, by simp, rfl, rfl⟩
      · rintro ⟨l, back, -, -, hp, rfl⟩
        obtain ⟨hl, -⟩ := List.append_eq_nil_iff.mp hp.symm
        rw [List.map_eq_nil_iff.mp hl]
        rfl
  | cons c p ih =>
      cases hc : base58Digit c with
      | none =>
          simp only [decodeLoop, hc, List.dropWhile_eq_nil_iff]
          constructor
          · intro h
            split_ifs at h with hspaces
            exact ⟨[], c :: p, by simp, hspaces, rfl, Option.some.inj h⟩
          · rintro ⟨l, back, hl, hback, hp, hn⟩
            cases l with
            | nil =>
                obtain rfl : c :: p = back := hp
                rw [if_pos hback]
                exact congrArg some hn
            | cons d l =>
                -- a digit that is none
                obtain ⟨rfl, -⟩ := List.cons_eq_cons.mp hp
                rw [base58Digit_base58Char d (hl d List.mem_cons_self)] at hc
                cases hc
      | some d =>
          obtain ⟨hd, rfl⟩ := base58Char_of_base58Digit hc
          simp only [decodeLoop, hc]
          rw [ih]
          constructor
          · rintro ⟨l, back, hl, hback, rfl, hn⟩
            refine ⟨d :: l, back, fun x hx => ?_, hback, rfl, hn⟩
            rcases List.mem_cons.mp hx with rfl | hx
            · exact hd
            · exact hl x hx
          · rintro ⟨l, back, hl, hback, hp, hn⟩
            cases l with
            | nil =>
                -- a digit that is a space
                obtain rfl : base58Char d :: p = back := hp
                have hspace := hback (base58Char d) List.mem_cons_self
                simp [(not_isSpace_base58Char d hd).1] at hspace
            | cons d' l =>
                obtain ⟨hhead, htail⟩ := List.cons_eq_cons.mp hp
                have hd' := base58Digit_base58Char d' (hl d' List.mem_cons_self)
                rw [← hhead, hc] at hd'
                obtain rfl := Option.some.inj hd'
                exact ⟨l, back, fun x hx => hl x (List.mem_cons_of_mem d hx), hback, htail, hn⟩

/-- The spaces behind a text begin with no digit. -/
lemma takeWhile_textOf_append {l : List ℕ} {back : List Char} (hl : ∀ d ∈ l, d < 58)
    (hback : ∀ c ∈ back, isSpace c = true) :
    ((textOf l ++ back).takeWhile (· = base58Char 0)).length = Radix.zeros l := by
  have hnil : back.takeWhile (· = base58Char 0) = [] := by
    cases back with
    | nil => rfl
    | cons c back =>
        have hc : c ≠ base58Char 0 := by
          rintro rfl
          have hspace := hback _ List.mem_cons_self
          simp [(not_isSpace_base58Char 0 (by norm_num)).1] at hspace
        simp [hc]
  rw [← takeWhile_textOf hl, List.takeWhile_append, hnil]
  split_ifs with h
  · rw [List.append_nil, h]
  · rfl

/-- The front of a string that is skipped, and the digits and spaces behind it. -/
lemma dropWhile_isSpace_iff {s : List Char} {l : List ℕ} (hl : ∀ d ∈ l, d < 58) :
    (∃ back, (∀ c ∈ back, isSpace c = true) ∧ s.dropWhile isSpace = textOf l ++ back) ↔
      ∃ front back, (∀ c ∈ front, isSpace c = true) ∧ (∀ c ∈ back, isSpace c = true) ∧
        s = front ++ textOf l ++ back := by
  constructor
  · rintro ⟨back, hback, h⟩
    refine ⟨s.takeWhile isSpace, back, fun c hc => List.mem_takeWhile_imp hc, hback, ?_⟩
    rw [List.append_assoc, ← h, List.takeWhile_append_dropWhile]
  · rintro ⟨front, back, hfront, hback, rfl⟩
    have hdrop : (front ++ textOf l ++ back).dropWhile isSpace = (textOf l ++ back).dropWhile isSpace := by
      rw [List.append_assoc, List.dropWhile_append_of_pos hfront]
    rw [hdrop]
    cases l with
    | nil => exact ⟨[], by simp, by simpa [textOf, List.dropWhile_eq_nil_iff] using hback⟩
    | cons d l =>
        have hd := (not_isSpace_base58Char d (hl d List.mem_cons_self)).1
        exact ⟨back, hback, by simp [textOf, hd]⟩

/-- **Base 58.** A string is decoded exactly if, up to a zero character and without spaces in front and
behind, it is what some bytes are encoded as; and then these bytes come out. -/
theorem decodeBase58_iff {s : List Char} {data : List UInt8} :
    decodeBase58 s = some data ↔ ∃ front back, (∀ c ∈ front, isSpace c = true) ∧
      (∀ c ∈ back, isSpace c = true) ∧
      s.takeWhile (· ≠ Char.ofNat 0) = front ++ encodeBase58 data ++ back := by
  have hdata := digitsOf_lt data
  have hlt : ∀ d ∈ Radix.recode 256 58 (digitsOf data), d < 58 :=
    fun d hd => Radix.lt_of_mem_numeral (by norm_num) hd
  rw [encodeBase58_eq, ← dropWhile_isSpace_iff hlt, decodeBase58]
  simp only [Option.map_eq_some_iff, decodeLoop_eq_some_iff]
  generalize (s.takeWhile (· ≠ Char.ofNat 0)).dropWhile isSpace = psz
  constructor
  · rintro ⟨n, ⟨l, back, hl, hback, rfl, hn⟩, h⟩
    refine ⟨back, hback, ?_⟩
    rw [foldl_digits] at hn
    rw [takeWhile_textOf_append hl hback, trimSign_getvch, ← hn] at h
    have hrecode : Radix.recode 58 256 l = digitsOf data := by
      have hbytes : ∀ d ∈ Nat.digits 256 (Radix.value 58 l), d < 256 :=
        fun d hd => Nat.digits_lt_base (by norm_num) hd
      have hmap := digitsOf_map_ofNat hbytes
      rw [← h, Radix.recode, Radix.numeral, digitsOf, List.map_append, List.map_reverse]
      rw [digitsOf] at hmap
      rw [hmap]
      simp
    rw [(Radix.recode_eq_iff (by norm_num) (by norm_num) hl hdata).mp hrecode]
  · rintro ⟨back, hback, rfl⟩
    refine ⟨_, ⟨_, back, hlt, hback, rfl, rfl⟩, ?_⟩
    rw [foldl_digits, takeWhile_textOf_append hlt hback, trimSign_getvch]
    refine digitsOf_injective ?_
    have hbytes : ∀ d ∈ Nat.digits 256 (Radix.value 58 (Radix.recode 256 58 (digitsOf data))), d < 256 :=
      fun d hd => Nat.digits_lt_base (by norm_num) hd
    have hmap := digitsOf_map_ofNat hbytes
    have hback := Radix.recode_recode (c := 58) (by norm_num) hdata
    rw [digitsOf, List.map_append, List.map_reverse]
    rw [digitsOf] at hmap
    rw [hmap]
    simpa [Radix.recode, Radix.numeral] using hback

/-- What is encoded has no space in it, nor the zero character. -/
lemma encodeBase58_clean {data : List UInt8} : ∀ c ∈ encodeBase58 data,
    isSpace c = false ∧ c ≠ Char.ofNat 0 := by
  intro c hc
  rw [encodeBase58_eq] at hc
  obtain ⟨d, hd, rfl⟩ := List.mem_map.mp hc
  exact not_isSpace_base58Char d (Radix.lt_of_mem_numeral (by norm_num) hd)

/-- Bytes are read back from what they are encoded as. -/
lemma decodeBase58_encodeBase58 (data : List UInt8) : decodeBase58 (encodeBase58 data) = some data := by
  refine decodeBase58_iff.mpr ⟨[], [], by simp, by simp, ?_⟩
  rw [List.nil_append, List.append_nil, List.takeWhile_eq_self_iff]
  exact fun c hc => by simpa using (encodeBase58_clean c hc).2

end ZosCore
