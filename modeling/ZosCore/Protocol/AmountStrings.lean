import ZosCore.Economy.Supply
import ZosCore.Protocol.SafeInt

/-!
Amounts as strings (`asset_object.cpp`).

* `amountFromString`, `amountToString`: the two functions, over the characters of a string.
* `AmountText`: an optional sign, digits, and after a point at most as many digits as an asset has
  decimals; `AmountText.value` is the number that it stands for.
* `amountFromString_eq_ok_iff`: what is read, and of which strings.
* `fromString_toString_iff`: the amounts that are read as they were written.
* **`amountStrings`**: these, and the strings of which a wrong number is read.
-/

namespace ZosCore

/-! ### The standard library -/

/-- `isspace` -/
def isSpace (c : Char) : Bool := c.toNat = 32 || (9 ≤ c.toNat && c.toNat ≤ 13)

/-- `std::to_string`, `fc::to_string` -/
def toString64 (n : ℤ) : List Char :=
  if n < 0 then '-' :: Nat.toDigits 10 n.natAbs else Nat.toDigits 10 n.natAbs

/-- The number that a string begins with. -/
def leadingNumber (s : List Char) : Except NumberError ℕ :=
  if s.takeWhile Char.isDigit = [] then .error .invalidArgument
  else .ok (Nat.ofDigitChars 10 (s.takeWhile Char.isDigit) 0)

/-- The number that a string begins with, with its sign. -/
def signedNumber : List Char → Except NumberError ℤ
  | '-' :: s => (leadingNumber s).map fun n : ℕ => -(n : ℤ)
  | '+' :: s => (leadingNumber s).map fun n : ℕ => (n : ℤ)
  | s => (leadingNumber s).map fun n : ℕ => (n : ℤ)

/-- `std::stoll`. What comes after the number is not looked at. -/
def stoll (s : List Char) : Except NumberError ℤ := do
  let n ← signedNumber (s.dropWhile isSpace)
  if Share n then .ok n else .error .outOfRange

/-- `substr`; without a count, to the end. -/
def substr (s : List Char) (pos : ℕ) (count : Option ℕ) : Except NumberError (List Char) :=
  if s.length < pos then .error .outOfRange
  else .ok (count.elim (s.drop pos) fun n => (s.drop pos).take n)

/-! ### Reading and writing -/

/-- `asset::scaled_precision`, with its table. -/
def scaledPrecision (precision : ℕ) : Except NumberError ℤ :=
  if precision < 19 then .ok (10 ^ precision) else .error .assertion

/-- The first loop of `amount_from_string`. -/
def scanAmount : List Char → Bool → Bool → Except NumberError (Bool × Bool)
  | [], negativeFound, decimalFound => .ok (negativeFound, decimalFound)
  | c :: s, negativeFound, decimalFound =>
      if c.isDigit then scanAmount s negativeFound decimalFound
      else if c = '-' ∧ ¬ negativeFound then scanAmount s true decimalFound
      else if c = '.' ∧ ¬ decimalFound then scanAmount s negativeFound true
      else .error .thrown

/-- What the part before the point adds. -/
def readLhs (lhs : List Char) (scaledPrecision : ℤ) : Except NumberError ℤ :=
  if lhs ≠ [] then do
    let n ← stoll lhs
    let n ← Safe.mul n scaledPrecision
    Safe.add 0 n
  else pure 0

/-- What the part after the point adds. -/
def readRhs (amountString : List Char) (decimalFound : Bool) (decimalPos : Option ℕ)
    (scaledPrecision satoshis : ℤ) : Except NumberError ℤ :=
  if decimalFound then do
    let maxRhsSize := ((toString64 scaledPrecision).drop 1).length
    let rhs ← substr amountString (decimalPos.getD 0 + 1) none
    if ¬ rhs.length ≤ maxRhsSize then throw .assertion
    let rhs := rhs.rightpad maxRhsSize '0'
    if rhs ≠ [] then do
      let n ← stoll rhs
      Safe.add satoshis n
    else pure satoshis
  else pure satoshis

/-- The end of `amount_from_string`. -/
def applySign (negativeFound : Bool) (satoshis : ℤ) : Except NumberError ℤ := do
  if ¬ satoshis ≤ maxBitcoreSupply then throw .assertion
  if negativeFound then Safe.mul satoshis (-1) else pure satoshis

/-- `asset_object::amount_from_string` -/
def amountFromString (precision : ℕ) (amountString : List Char) : Except NumberError ℤ := do
  let (negativeFound, decimalFound) ← scanAmount amountString false false
  let scaledPrecision ← scaledPrecision precision
  let decimalPos := amountString.findIdx? (· = '.')
  let lhs ← substr amountString negativeFound.toNat decimalPos
  let satoshis ← readLhs lhs scaledPrecision
  let satoshis ← readRhs amountString decimalFound decimalPos scaledPrecision satoshis
  applySign negativeFound satoshis

/-- The loop of `amount_to_string`. -/
def scaleLoop : ℕ → Except NumberError ℤ
  | 0 => .ok 1
  | i + 1 => do Safe.mul (← scaleLoop i) 10

/-- `asset_object::amount_to_string` -/
def amountToString (precision : ℕ) (amount : ℤ) : Except NumberError (List Char) := do
  let scaledPrecision ← scaleLoop precision
  let result := toString64 (amount.tdiv scaledPrecision)
  let decimals := amount.tmod scaledPrecision
  if decimals ≠ 0 then
    let sum ← Safe.add scaledPrecision decimals
    pure (result ++ '.' :: (toString64 sum).drop 1)
  else pure result

/-! ### What is read -/

/-- What `amount_from_string` takes for the part before the point: where there is a sign, the first
character is left out. -/
def wholePart (s : List Char) : List Char :=
  let t := if '-' ∈ s then s.tail else s
  (s.findIdx? (· = '.')).elim t t.take

/-- The part after the point, filled up with zeros. -/
def fractionPart (precision : ℕ) (s : List Char) : List Char :=
  if '.' ∈ s then (s.drop (s.findIdx (· = '.') + 1)).rightpad precision '0' else []

/-- A part is read as the number that it begins with, or as zero if it is empty. -/
def Reads (l : List Char) (n : ℤ) : Prop := l = [] ∧ n = 0 ∨ l ≠ [] ∧ stoll l = .ok n

/-- The parts of a string are read as `w` and `f`, and what they make up fits. -/
structure Readable (precision : ℕ) (s : List Char) (w f : ℤ) : Prop where
  chars : ∀ c ∈ s, c.isDigit = true ∨ c = '-' ∨ c = '.'
  oneSign : s.count '-' ≤ 1
  onePoint : s.count '.' ≤ 1
  whole : Reads (wholePart s) w
  places : (fractionPart precision s).length ≤ precision
  fraction : Reads (fractionPart precision s) f
  wholeFits : Share (w * 10 ^ precision)
  fits : Share (w * 10 ^ precision + f)
  small : w * 10 ^ precision + f ≤ maxBitcoreSupply
  negatable : '-' ∈ s → Share (-(w * 10 ^ precision + f))

variable {precision : ℕ} {s l : List Char} {c : Char} {w f r : ℤ}

lemma not_isDigit_sign : Char.isDigit '-' = false := by decide

lemma not_isDigit_point : Char.isDigit '.' = false := by decide

/-- The first loop finds the sign and the point, if there is one of them each at most. -/
lemma scanAmount_eq_ok {n d n' d' : Bool} : scanAmount s n d = .ok (n', d') ↔
    (∀ c ∈ s, c.isDigit = true ∨ c = '-' ∨ c = '.') ∧ s.count '-' + n.toNat ≤ 1 ∧
      s.count '.' + d.toNat ≤ 1 ∧ n' = (n || decide ('-' ∈ s)) ∧ d' = (d || decide ('.' ∈ s)) := by
  induction s generalizing n d with
  | nil =>
      have hn := n.toNat_le
      have hd := d.toNat_le
      simp only [scanAmount, Except.ok.injEq, Prod.mk.injEq, List.not_mem_nil, List.count_nil,
        Nat.zero_add, hn, hd, decide_false, Bool.or_false, false_implies, implies_true, true_and]
      exact and_congr eq_comm eq_comm
  | cons c s ih =>
      rw [scanAmount]
      split_ifs with hdigit hsign hpoint
      · have hc : c ≠ '-' ∧ c ≠ '.' := by
          constructor
          · rintro rfl
            rw [not_isDigit_sign] at hdigit
            cases hdigit
          · rintro rfl
            rw [not_isDigit_point] at hdigit
            cases hdigit
        rw [ih, List.count_cons_of_ne hc.1, List.count_cons_of_ne hc.2]
        simp [hdigit, hc.1.symm, hc.2.symm]
      · obtain ⟨rfl, hn⟩ := hsign
        rw [ih]
        simp [hn]
      · obtain ⟨rfl, hd⟩ := hpoint
        rw [ih]
        simp [hd]
      · refine iff_of_false nofun ?_
        rintro ⟨hchars, hsigns, hpoints, -⟩
        rcases hchars c List.mem_cons_self with hc | rfl | rfl
        · exact hdigit hc
        · have hn : n = false := by
            rw [List.count_cons_self] at hsigns
            exact Bool.toNat_eq_zero.mp (by omega)
          exact hsign ⟨rfl, by simp [hn]⟩
        · have hd : d = false := by
            rw [List.count_cons_self] at hpoints
            exact Bool.toNat_eq_zero.mp (by omega)
          exact hpoint ⟨rfl, by simp [hd]⟩

/-- A power of ten has one digit more than it has zeros. -/
lemma length_toString64_scaled (precision : ℕ) :
    ((toString64 (10 ^ precision)).drop 1).length = precision := by
  have hpos : ¬ (10 : ℤ) ^ precision < 0 := not_lt.mpr (by positivity)
  have habs : ((10 : ℤ) ^ precision).natAbs = 10 ^ precision := by
    rw [Int.natAbs_pow]
    rfl
  rw [toString64, if_neg hpos, habs, List.length_drop]
  have hle := (Nat.length_toDigits_le_iff (n := 10 ^ precision) (by norm_num : 1 < 10)
    (Nat.succ_pos precision)).mpr (Nat.pow_lt_pow_right (by norm_num) (Nat.lt_succ_self _))
  rcases Nat.eq_zero_or_pos precision with rfl | hp
  · omega
  · have hgt := mt (Nat.length_toDigits_le_iff (n := 10 ^ precision) (by norm_num : 1 < 10) hp).mp
      (lt_irrefl _)
    omega

lemma safe_add_eq_ok {a b : ℤ} (ha : Share a) :
    Safe.add a b = .ok r ↔ Share (a + b) ∧ r = a + b := by
  rw [Safe.add_eq ha]
  split_ifs with h
  · simp [h, eq_comm]
  · simp [h]

lemma safe_mul_eq_ok {a b : ℤ} : Safe.mul a b = .ok r ↔ Share (a * b) ∧ r = a * b := by
  rw [Safe.mul_eq]
  split_ifs with h
  · simp [h, eq_comm]
  · simp [h]

lemma share_zero : Share 0 := by decide

lemma readLhs_eq_ok {scale : ℤ} :
    readLhs l scale = .ok r ↔ ∃ w, Reads l w ∧ Share (w * scale) ∧ r = w * scale := by
  rw [readLhs]
  split_ifs with hl
  · constructor
    · intro h
      obtain ⟨n, hn, h⟩ := except_bind_eq_ok.mp h
      obtain ⟨m, hm, h⟩ := except_bind_eq_ok.mp h
      obtain ⟨hfits, rfl⟩ := safe_mul_eq_ok.mp hm
      rw [safe_add_eq_ok share_zero, zero_add] at h
      exact ⟨n, .inr ⟨hl, hn⟩, hfits, h.2⟩
    · rintro ⟨w, ⟨hnil, -⟩ | ⟨-, hw⟩, hfits, rfl⟩
      · exact absurd hnil hl
      · refine except_bind_eq_ok.mpr ⟨w, hw, except_bind_eq_ok.mpr
          ⟨w * scale, safe_mul_eq_ok.mpr ⟨hfits, rfl⟩, (safe_add_eq_ok share_zero).mpr ?_⟩⟩
        rw [zero_add]
        exact ⟨hfits, rfl⟩
  · have hnil : l = [] := not_not.mp hl
    constructor
    · intro h
      cases h
      exact ⟨0, .inl ⟨hnil, rfl⟩, by rw [zero_mul]; exact ⟨share_zero, rfl⟩⟩
    · rintro ⟨w, ⟨-, rfl⟩ | ⟨hne, -⟩, -, rfl⟩
      · rw [zero_mul]
        rfl
      · exact absurd hnil hne

/-- The index of the point, where there is one. -/
lemma findIdx?_point (h : '.' ∈ s) :
    s.findIdx? (· = '.') = some (s.findIdx (· = '.')) ∧ s.findIdx (· = '.') < s.length := by
  have hlt : s.findIdx (fun c => decide (c = '.')) < s.length :=
    List.findIdx_lt_length_of_exists ⟨'.', h, by simp⟩
  exact ⟨List.findIdx?_eq_some_of_exists ⟨'.', h, by simp⟩, hlt⟩

lemma findIdx?_no_point (h : '.' ∉ s) : s.findIdx? (fun c => decide (c = '.')) = none := by
  rw [List.findIdx?_eq_none_iff]
  intro c hc
  rw [decide_eq_false_iff_not]
  rintro rfl
  exact h hc

lemma fractionPart_no_point (h : '.' ∉ s) : fractionPart precision s = [] := if_neg h

lemma readRhs_eq_ok {satoshis : ℤ} (hs : Share satoshis) :
    readRhs s (decide ('.' ∈ s)) (s.findIdx? (· = '.')) (10 ^ precision) satoshis = .ok r ↔
      (fractionPart precision s).length ≤ precision ∧
        ∃ f, Reads (fractionPart precision s) f ∧ Share (satoshis + f) ∧ r = satoshis + f := by
  have hempty : fractionPart precision s = [] → ((pure satoshis : Except NumberError ℤ) = .ok r ↔
      ∃ f, Reads (fractionPart precision s) f ∧ Share (satoshis + f) ∧ r = satoshis + f) := by
    intro hnil
    constructor
    · intro h
      cases h
      exact ⟨0, .inl ⟨hnil, rfl⟩, by rw [add_zero]; exact ⟨hs, rfl⟩⟩
    · rintro ⟨f, ⟨-, rfl⟩ | ⟨hne, -⟩, -, rfl⟩
      · rw [add_zero]
        rfl
      · exact absurd hnil hne
  by_cases hpoint : '.' ∈ s
  · obtain ⟨hfind, hlt⟩ := findIdx?_point hpoint
    have hsubstr : substr s (s.findIdx (fun c => decide (c = '.')) + 1) none =
        .ok (s.drop (s.findIdx (fun c => decide (c = '.')) + 1)) := by
      rw [substr, if_neg (by omega)]
      rfl
    have hpart : (s.drop (s.findIdx (fun c => decide (c = '.')) + 1)).rightpad precision '0' =
        fractionPart precision s := by
      rw [fractionPart, if_pos hpoint]
    have hlength : (fractionPart precision s).length ≤ precision ↔
        (s.drop (s.findIdx (fun c => decide (c = '.')) + 1)).length ≤ precision := by
      rw [← hpart, List.rightpad, List.length_append, List.length_replicate]
      omega
    rw [readRhs, length_toString64_scaled, hfind, Option.getD_some, hsubstr, hlength,
      decide_eq_true hpoint, if_pos rfl, except_ok_bind, ite_throw_eq_ok, not_not, hpart]
    refine and_congr_right fun _ => ?_
    dsimp only
    split_ifs with hne
    · constructor
      · intro h
        obtain ⟨n, hn, h⟩ := except_bind_eq_ok.mp h
        exact ⟨n, .inr ⟨hne, hn⟩, (safe_add_eq_ok hs).mp h⟩
      · rintro ⟨f, ⟨hnil, -⟩ | ⟨-, hf⟩, h⟩
        · exact absurd hnil hne
        · exact except_bind_eq_ok.mpr ⟨f, hf, (safe_add_eq_ok hs).mpr h⟩
    · exact hempty (not_not.mp hne)
  · have hnil : fractionPart precision s = [] := fractionPart_no_point hpoint
    rw [readRhs, decide_eq_false hpoint, if_neg Bool.false_ne_true]
    exact (hempty hnil).trans (and_iff_right (by simp [hnil])).symm

/-- The first character is left out where there is a sign. -/
lemma substr_wholePart :
    substr s (decide ('-' ∈ s)).toNat (s.findIdx? (· = '.')) = .ok (wholePart s) := by
  by_cases hsign : '-' ∈ s
  · have hlength : 1 ≤ s.length := List.length_pos_of_mem hsign
    rw [substr, wholePart, decide_eq_true hsign, Bool.toNat_true, if_neg (by omega), if_pos hsign,
      List.drop_one]
  · rw [substr, wholePart, decide_eq_false hsign, Bool.toNat_false, if_neg (by omega), if_neg hsign,
      List.drop_zero]

lemma applySign_eq_ok {n : Bool} {m : ℤ} : applySign n m = .ok r ↔
    m ≤ maxBitcoreSupply ∧ (n = true → Share (-m)) ∧ r = if n then -m else m := by
  rw [applySign, ite_throw_eq_ok, not_not]
  refine and_congr_right fun _ => ?_
  cases n
  · simp [pure, Except.pure, eq_comm]
  · rw [if_pos rfl, safe_mul_eq_ok, mul_neg_one]
    simp

/-- **Reading.** What is read, and of which strings. -/
theorem amountFromString_eq_ok_iff (hp : precision < 19) : amountFromString precision s = .ok r ↔
    ∃ w f, Readable precision s w f ∧
      r = if '-' ∈ s then -(w * 10 ^ precision + f) else w * 10 ^ precision + f := by
  have hscale : scaledPrecision precision = .ok (10 ^ precision) := if_pos hp
  rw [amountFromString]
  constructor
  · intro h
    obtain ⟨⟨n, d⟩, hscan, h⟩ := except_bind_eq_ok.mp h
    obtain ⟨hchars, hsigns, hpoints, hn, hd⟩ := scanAmount_eq_ok.mp hscan
    rw [Bool.false_or] at hn hd
    subst hn hd
    simp only [hscale, except_ok_bind, substr_wholePart] at h
    obtain ⟨m, hm, h⟩ := except_bind_eq_ok.mp h
    obtain ⟨w, hw, hwfits, rfl⟩ := readLhs_eq_ok.mp hm
    obtain ⟨m, hm, h⟩ := except_bind_eq_ok.mp h
    obtain ⟨hplaces, f, hf, hffits, rfl⟩ := (readRhs_eq_ok hwfits).mp hm
    obtain ⟨hsmall, hneg, rfl⟩ := applySign_eq_ok.mp h
    exact ⟨w, f, ⟨hchars, hsigns, hpoints, hw, hplaces, hf, hwfits, hffits, hsmall,
      fun hsign => hneg (decide_eq_true hsign)⟩, by simp⟩
  · rintro ⟨w, f, h, rfl⟩
    refine except_bind_eq_ok.mpr ⟨(decide ('-' ∈ s), decide ('.' ∈ s)),
      scanAmount_eq_ok.mpr ⟨h.chars, h.oneSign, h.onePoint, by simp, by simp⟩, ?_⟩
    simp only [hscale, except_ok_bind, substr_wholePart]
    refine except_bind_eq_ok.mpr ⟨_, readLhs_eq_ok.mpr ⟨w, h.whole, h.wholeFits, rfl⟩,
      except_bind_eq_ok.mpr ⟨_, (readRhs_eq_ok h.wholeFits).mpr ⟨h.places, f, h.fraction, h.fits, rfl⟩,
        applySign_eq_ok.mpr ⟨h.small, fun hsign => h.negatable (of_decide_eq_true hsign), by simp⟩⟩⟩

/-! ### The grammar -/

/-- An amount in writing: a sign or none, digits, and digits after a point or no point. -/
structure AmountText where
  negative : Bool
  whole : List Char
  fraction : Option (List Char)
  whole_digits : ∀ c ∈ whole, c.isDigit = true
  fraction_digits : ∀ l, fraction = some l → ∀ c ∈ l, c.isDigit = true

namespace AmountText

/-- The sign. -/
def sign (A : AmountText) : List Char := if A.negative then ['-'] else []

/-- The point and what is after it. -/
def rest (A : AmountText) : List Char := A.fraction.elim [] ('.' :: ·)

/-- What is written. -/
def text (A : AmountText) : List Char := A.sign ++ A.whole ++ A.rest

/-- The digits after the point. -/
def places (A : AmountText) : ℕ := A.fraction.elim 0 List.length

/-- The number that is meant. -/
def value (A : AmountText) : ℚ :=
  (if A.negative then -1 else 1) *
    (Nat.ofDigitChars 10 A.whole 0 + Nat.ofDigitChars 10 (A.fraction.getD []) 0 / 10 ^ A.places)

end AmountText

/-! ### Digits -/

/-- The value of a row of digits. -/
def digitsValue (l : List Char) : ℤ := Nat.ofDigitChars 10 l 0

lemma ne_of_isDigit (hc : c.isDigit = true) : c ≠ '-' ∧ c ≠ '+' ∧ c ≠ '.' ∧ isSpace c = false := by
  refine ⟨?_, ?_, ?_, ?_⟩
  · rintro rfl
    exact absurd hc (by decide)
  · rintro rfl
    exact absurd hc (by decide)
  · rintro rfl
    exact absurd hc (by decide)
  · have hge : 48 ≤ c.toNat := by
      rw [Char.isDigit, Bool.and_eq_true, decide_eq_true_eq] at hc
      exact UInt32.le_iff_toNat_le.mp hc.1
    rw [isSpace, decide_eq_false (by omega), decide_eq_false (show ¬ c.toNat ≤ 13 by omega)]
    simp

/-- A string that begins with digits is read as their number, if that fits. -/
lemma stoll_digits_eq_ok {t : List Char} (hl : ∀ c ∈ l, c.isDigit = true) (hne : l ≠ [])
    (ht : t.takeWhile Char.isDigit = []) :
    stoll (l ++ t) = .ok w ↔ w = digitsValue l ∧ Share w := by
  have hnumber : leadingNumber (l ++ t) = .ok (Nat.ofDigitChars 10 l 0) := by
    rw [leadingNumber, List.takeWhile_append_of_pos hl, ht, List.append_nil, if_neg hne]
  obtain ⟨c, l, rfl⟩ := List.exists_cons_of_ne_nil hne
  obtain ⟨hminus, hplus, -, hspace⟩ := ne_of_isDigit (hl c List.mem_cons_self)
  have hdrop : (c :: l ++ t).dropWhile isSpace = c :: l ++ t :=
    List.dropWhile_cons_of_neg (by simp [hspace])
  have hsigned : signedNumber (c :: l ++ t) = .ok (digitsValue (c :: l)) := by
    rw [List.cons_append] at hnumber ⊢
    rw [signedNumber, hnumber]
    · rfl
    · exact fun s hs => hminus (List.cons.inj hs).1
    · exact fun s hs => hplus (List.cons.inj hs).1
  rw [stoll, hdrop, hsigned, except_ok_bind]
  split_ifs with hshare
  · constructor
    · intro h
      cases h
      exact ⟨rfl, hshare⟩
    · rintro ⟨rfl, -⟩
      rfl
  · refine iff_of_false nofun ?_
    rintro ⟨rfl, h⟩
    exact hshare h

/-- Digits are read as their number. -/
lemma reads_digits (hl : ∀ c ∈ l, c.isDigit = true) : Reads l w ↔ w = digitsValue l ∧ Share w := by
  by_cases hne : l = []
  · subst hne
    constructor
    · rintro (⟨-, rfl⟩ | ⟨hne, -⟩)
      · exact ⟨rfl, share_zero⟩
      · exact absurd rfl hne
    · rintro ⟨rfl, -⟩
      exact .inl ⟨rfl, rfl⟩
  · have hstoll := stoll_digits_eq_ok (t := []) (w := w) hl hne rfl
    rw [List.append_nil] at hstoll
    rw [Reads, hstoll, or_iff_right (fun h => hne h.1), and_iff_right hne]

/-- Digits and the point after them are read as the digits, if there are any. -/
lemma reads_digits_point (hl : ∀ c ∈ l, c.isDigit = true) :
    Reads (l ++ ['.']) w ↔ l ≠ [] ∧ w = digitsValue l ∧ Share w := by
  have hnil : l ++ ['.'] ≠ [] := by simp
  rw [Reads, or_iff_right (fun h => hnil h.1), and_iff_right hnil]
  by_cases hne : l = []
  · have hpoint : stoll ['.'] = .error .invalidArgument := rfl
    rw [hne, List.nil_append, hpoint]
    exact iff_of_false nofun fun h => h.1 rfl
  · rw [stoll_digits_eq_ok hl hne rfl, and_iff_right hne]

lemma digitsValue_nonneg (l : List Char) : 0 ≤ digitsValue l := Int.natCast_nonneg _

/-- Zeros at the end. -/
lemma digitsValue_rightpad (l : List Char) (precision : ℕ) :
    digitsValue (l.rightpad precision '0') = digitsValue l * 10 ^ (precision - l.length) := by
  rw [digitsValue, List.rightpad, Nat.ofDigitChars_append, Nat.ofDigitChars_replicate_zero, digitsValue]
  push_cast
  ring

lemma not_mem_digits (hl : ∀ c ∈ l, c.isDigit = true) : '-' ∉ l ∧ '.' ∉ l :=
  ⟨fun h => (ne_of_isDigit (hl _ h)).1 rfl, fun h => (ne_of_isDigit (hl _ h)).2.2.1 rfl⟩

/-- The first point. -/
lemma findIdx?_append_point {t : List Char} (h : '.' ∉ l) :
    (l ++ '.' :: t).findIdx? (fun c => decide (c = '.')) = some l.length := by
  rw [List.findIdx?_append, findIdx?_no_point h, List.findIdx?_cons]
  simp

namespace AmountText

variable {A : AmountText}

/-- There is a sign in the text exactly if the amount is negative. -/
lemma sign_mem_iff : '-' ∈ A.text ↔ A.negative = true := by
  have hwhole := (not_mem_digits A.whole_digits).1
  have hrest : '-' ∉ A.rest := by
    rw [rest]
    cases h : A.fraction with
    | none => simp
    | some l => simpa using (not_mem_digits (A.fraction_digits l h)).1
  rw [text, sign]
  split_ifs with hneg
  · simp [hneg]
  · simp [hneg, hwhole, hrest]

/-- Before the point there is none. -/
lemma point_not_mem (A : AmountText) : '.' ∉ A.sign ++ A.whole := by
  have hwhole := (not_mem_digits A.whole_digits).2
  rw [sign]
  split_ifs
  · simp [hwhole]
  · simp [hwhole]

lemma text_of_none (h : A.fraction = none) : A.text = A.sign ++ A.whole := by
  rw [text, rest, h, Option.elim_none, List.append_nil]

lemma text_of_some (h : A.fraction = some l) : A.text = A.sign ++ A.whole ++ '.' :: l := by
  rw [text, rest, h, Option.elim_some]

/-- Where the sign is left out in reading, only the sign is. -/
lemma unsigned_text : (if '-' ∈ A.text then A.text.tail else A.text) = A.whole ++ A.rest := by
  simp only [sign_mem_iff]
  split_ifs with hneg
  · rw [text, sign, if_pos hneg]
    rfl
  · rw [text, sign, if_neg hneg, List.nil_append]

lemma length_sign : A.sign.length = if A.negative then 1 else 0 := by
  rw [sign]
  split_ifs
  · rfl
  · rfl

/-- The part before the point, which takes the point along where there is a sign. -/
lemma wholePart_text : wholePart A.text =
    if A.negative = true ∧ A.fraction.isSome = true then A.whole ++ ['.'] else A.whole := by
  rw [wholePart, unsigned_text]
  cases h : A.fraction with
  | none =>
      rw [text_of_none h, findIdx?_no_point A.point_not_mem, rest, h]
      simp
  | some l =>
      rw [text_of_some h, findIdx?_append_point A.point_not_mem, List.length_append, length_sign, rest, h]
      simp only [Option.elim_some, Option.isSome_some, and_true]
      split_ifs
      · rw [List.take_append, Nat.add_comm]
        simp
      · simp

/-- The part after the point. -/
lemma fractionPart_text : fractionPart precision A.text =
    A.fraction.elim [] (List.rightpad precision '0') := by
  cases h : A.fraction with
  | none =>
      rw [text_of_none h]
      exact fractionPart_no_point A.point_not_mem
  | some l =>
      have hmem : '.' ∈ A.sign ++ A.whole ++ '.' :: l := by simp
      have hfind := (findIdx?_point hmem).1
      rw [findIdx?_append_point A.point_not_mem, Option.some.injEq] at hfind
      have hdrop : (A.sign ++ A.whole ++ '.' :: l).drop ((A.sign ++ A.whole).length + 1) = l := by
        rw [← List.drop_drop, List.drop_left, List.drop_one, List.tail_cons]
      rw [text_of_some h, fractionPart, if_pos hmem, ← hfind, hdrop, Option.elim_some]

/-- The digits after the point, filled up. -/
def scaledFraction (precision : ℕ) (A : AmountText) : ℤ :=
  digitsValue (A.fraction.getD []) * 10 ^ (precision - A.places)

/-- What the digits make up, in the smallest unit. -/
def scaled (precision : ℕ) (A : AmountText) : ℤ :=
  digitsValue A.whole * 10 ^ precision + A.scaledFraction precision

lemma scaledFraction_nonneg : 0 ≤ A.scaledFraction precision :=
  mul_nonneg (digitsValue_nonneg _) (by positivity)

lemma reads_fractionPart : Reads (fractionPart precision A.text) f ↔
    f = A.scaledFraction precision ∧ Share f := by
  rw [fractionPart_text, scaledFraction, places]
  cases h : A.fraction with
  | none =>
      rw [Option.elim_none, Option.elim_none, Option.getD_none, reads_digits (by simp)]
      simp [digitsValue]
  | some l =>
      have hdigits : ∀ c ∈ l.rightpad precision '0', c.isDigit = true := by
        intro c hc
        rw [List.rightpad, List.mem_append] at hc
        rcases hc with hc | hc
        · exact A.fraction_digits l h c hc
        · rw [List.eq_of_mem_replicate hc]
          rfl
      rw [Option.elim_some, Option.elim_some, Option.getD_some, reads_digits hdigits,
        digitsValue_rightpad]

lemma length_fractionPart : (fractionPart precision A.text).length ≤ precision ↔
    A.places ≤ precision := by
  rw [fractionPart_text, places]
  cases A.fraction with
  | none => simp
  | some l =>
      rw [Option.elim_some, Option.elim_some, List.rightpad, List.length_append, List.length_replicate]
      omega

lemma chars_text (A : AmountText) : ∀ c ∈ A.text, c.isDigit = true ∨ c = '-' ∨ c = '.' := by
  intro c hc
  rw [text, List.mem_append, List.mem_append] at hc
  rcases hc with (hc | hc) | hc
  · rw [sign] at hc
    split_ifs at hc
    · exact .inr (.inl (List.mem_singleton.mp hc))
    · cases hc
  · exact .inl (A.whole_digits c hc)
  · cases h : A.fraction with
    | none =>
        rw [rest, h] at hc
        cases hc
    | some l =>
        rw [rest, h, Option.elim_some] at hc
        rcases List.mem_cons.mp hc with rfl | hc
        · exact .inr (.inr rfl)
        · exact .inl (A.fraction_digits l h c hc)

lemma count_sign_text (A : AmountText) : A.text.count '-' ≤ 1 := by
  have hwhole := List.count_eq_zero_of_not_mem (not_mem_digits A.whole_digits).1
  have hsign : A.sign.count '-' ≤ 1 := by
    rw [sign]
    split_ifs
    · rfl
    · exact Nat.zero_le _
  have hrest : A.rest.count '-' = 0 := by
    refine List.count_eq_zero_of_not_mem ?_
    rw [rest]
    cases h : A.fraction with
    | none => simp
    | some l => simpa using (not_mem_digits (A.fraction_digits l h)).1
  rw [text, List.count_append, List.count_append]
  omega

lemma count_point_text (A : AmountText) : A.text.count '.' ≤ 1 := by
  have hfront := List.count_eq_zero_of_not_mem A.point_not_mem
  have hrest : A.rest.count '.' ≤ 1 := by
    rw [rest]
    cases h : A.fraction with
    | none => simp
    | some l =>
        have hl := List.count_eq_zero_of_not_mem (not_mem_digits (A.fraction_digits l h)).2
        simp [hl]
  rw [text, List.count_append, hfront]
  omega

/-- What is read of a text of the grammar. After a sign, the point alone is not a number. -/
lemma readable_iff : Readable precision A.text w f ↔
    (A.negative = true ∧ A.fraction.isSome = true → A.whole ≠ []) ∧ A.places ≤ precision ∧
      w = digitsValue A.whole ∧ f = A.scaledFraction precision ∧
        A.scaled precision ≤ maxBitcoreSupply := by
  have hw0 := digitsValue_nonneg A.whole
  have hf0 : 0 ≤ A.scaledFraction precision := A.scaledFraction_nonneg
  constructor
  · intro h
    have hf := (reads_fractionPart.mp h.fraction).1
    have hplaces := length_fractionPart.mp h.places
    have hwhole := h.whole
    rw [wholePart_text] at hwhole
    split_ifs at hwhole with hcase
    · obtain ⟨hne, hw, -⟩ := (reads_digits_point A.whole_digits).mp hwhole
      refine ⟨fun _ => hne, hplaces, hw, hf, ?_⟩
      rw [scaled, ← hw, ← hf]
      exact h.small
    · have hw := ((reads_digits A.whole_digits).mp hwhole).1
      refine ⟨fun h => absurd h hcase, hplaces, hw, hf, ?_⟩
      rw [scaled, ← hw, ← hf]
      exact h.small
  · rintro ⟨hne, hplaces, rfl, rfl, hsmall⟩
    have hpow : (1 : ℤ) ≤ 10 ^ precision := one_le_pow₀ (by norm_num)
    have hle : digitsValue A.whole ≤ digitsValue A.whole * 10 ^ precision :=
      le_mul_of_one_le_right hw0 hpow
    rw [scaled, maxBitcoreSupply] at hsmall
    have hshare : ∀ x : ℤ, 0 ≤ x → x ≤ 1000000000000000000 → Share x := fun x hlo hhi =>
      ⟨by omega, by omega⟩
    refine ⟨A.chars_text, A.count_sign_text, A.count_point_text, ?_, length_fractionPart.mpr hplaces,
      reads_fractionPart.mpr ⟨rfl, hshare _ hf0 (by omega)⟩, hshare _ (by omega) (by omega),
      hshare _ (by omega) hsmall, hsmall, fun _ => ⟨by omega, by omega⟩⟩
    rw [wholePart_text]
    split_ifs with hcase
    · exact (reads_digits_point A.whole_digits).mpr ⟨hne hcase, rfl, hshare _ hw0 (by omega)⟩
    · exact (reads_digits A.whole_digits).mpr ⟨rfl, hshare _ hw0 (by omega)⟩

/-- Digits with one point at most are two rows of digits. -/
lemma exists_parts (hchars : ∀ c ∈ s, c.isDigit = true ∨ c = '.') (hpoint : s.count '.' ≤ 1) :
    ∃ whole fraction, (∀ c ∈ whole, c.isDigit = true) ∧
      (∀ l, fraction = some l → ∀ c ∈ l, c.isDigit = true) ∧
        s = whole ++ fraction.elim [] ('.' :: ·) := by
  by_cases h : '.' ∈ s
  · obtain ⟨whole, l, rfl⟩ := List.append_of_mem h
    rw [List.count_append, List.count_cons_self] at hpoint
    have hwhole : '.' ∉ whole := List.count_eq_zero.mp (by omega)
    have hl : '.' ∉ l := List.count_eq_zero.mp (by omega)
    refine ⟨whole, some l, fun c hc => ?_, fun l' hl' c hc => ?_, rfl⟩
    · refine (hchars c (List.mem_append_left _ hc)).resolve_right ?_
      rintro rfl
      exact hwhole hc
    · cases hl'
      refine (hchars c (List.mem_append_right _ (List.mem_cons_of_mem _ hc))).resolve_right ?_
      rintro rfl
      exact hl hc
  · refine ⟨s, none, fun c hc => (hchars c hc).resolve_right ?_, nofun, by simp⟩
    rintro rfl
    exact h hc

/-- A string of the right characters without a sign after its first one is in the grammar. -/
lemma exists_text (hchars : ∀ c ∈ s, c.isDigit = true ∨ c = '-' ∨ c = '.') (hpoint : s.count '.' ≤ 1)
    (hsign : '-' ∉ s.tail) : ∃ A : AmountText, A.text = s := by
  have hdrop : ∀ t : List Char, (∀ c ∈ t, c ∈ s) → '-' ∉ t →
      ∀ c ∈ t, c.isDigit = true ∨ c = '.' := fun t hmem hno c hc => by
    rcases hchars c (hmem c hc) with h | rfl | h
    · exact .inl h
    · exact absurd hc hno
    · exact .inr h
  by_cases hhead : s.head? = some '-'
  · obtain ⟨t, rfl⟩ := List.head?_eq_some_iff.mp hhead
    rw [List.count_cons_of_ne (by decide)] at hpoint
    obtain ⟨whole, fraction, hwhole, hfraction, rfl⟩ :=
      exists_parts (hdrop t (fun c hc => List.mem_cons_of_mem _ hc) hsign) hpoint
    exact ⟨⟨true, whole, fraction, hwhole, hfraction⟩, rfl⟩
  · have hno : '-' ∉ s := by
      intro h
      cases s with
      | nil => cases h
      | cons c t =>
          rcases List.mem_cons.mp h with rfl | h
          · exact hhead rfl
          · exact hsign h
    obtain ⟨whole, fraction, hwhole, hfraction, rfl⟩ := exists_parts (hdrop s (fun _ => id) hno) hpoint
    exact ⟨⟨false, whole, fraction, hwhole, hfraction⟩, rfl⟩

/-- In the grammar there is no sign after the first character. -/
lemma sign_not_mem_tail (A : AmountText) : '-' ∉ A.text.tail := by
  have hcount := A.count_sign_text
  by_cases hneg : A.negative = true
  · have htext : A.text = '-' :: (A.whole ++ A.rest) := by
      rw [text, sign, if_pos hneg]
      rfl
    rw [htext, List.count_cons_self] at hcount
    rw [htext, List.tail_cons]
    exact List.count_eq_zero.mp (by omega)
  · exact fun h => hneg (sign_mem_iff.mp (List.mem_of_mem_tail h))

/-- The value of a text, in the smallest unit. -/
lemma value_eq (hplaces : A.places ≤ precision) :
    ((if A.negative = true then -A.scaled precision else A.scaled precision : ℤ) : ℚ) =
      A.value * 10 ^ precision := by
  have hpow : (10 : ℚ) ^ precision = 10 ^ (precision - A.places) * 10 ^ A.places := by
    rw [← pow_add, Nat.sub_add_cancel hplaces]
  have hscaled : ((A.scaled precision : ℤ) : ℚ) = (Nat.ofDigitChars 10 A.whole 0 +
      Nat.ofDigitChars 10 (A.fraction.getD []) 0 / 10 ^ A.places) * 10 ^ precision := by
    rw [scaled, scaledFraction, digitsValue, digitsValue]
    push_cast
    rw [hpow]
    field_simp
  rw [value]
  split_ifs
  · rw [Int.cast_neg, hscaled]
    ring
  · rw [hscaled, one_mul]

end AmountText

/-! ### Reading what is in the grammar -/

/-- Of a string only the number is read that it stands for. -/
def ReadsRight (precision : ℕ) (s : List Char) : Prop :=
  ∀ r, amountFromString precision s = .ok r →
    (∃ A : AmountText, A.text = s ∧ A.places ≤ precision ∧ (r : ℚ) = A.value * 10 ^ precision) ∧
      |r| ≤ maxBitcoreSupply

/-- The sign stands after the first character, and what is left without that character has numbers in
the right places: it is read without it. -/
def Misread (precision : ℕ) (s : List Char) : Prop :=
  '-' ∈ s.tail ∧ ∃ w f, Readable precision s w f

/-- A text of the grammar is read right. -/
lemma AmountText.readsRight (A : AmountText) (hp : precision < 19) :
    ReadsRight precision A.text := by
  intro r hr
  obtain ⟨w, f, h, rfl⟩ := (amountFromString_eq_ok_iff hp).mp hr
  obtain ⟨-, hplaces, rfl, rfl, hsmall⟩ := AmountText.readable_iff.mp h
  have hnonneg : 0 ≤ A.scaled precision :=
    add_nonneg (mul_nonneg (digitsValue_nonneg _) (by positivity)) A.scaledFraction_nonneg
  refine ⟨⟨A, rfl, hplaces, ?_⟩, ?_⟩
  · rw [← AmountText.value_eq hplaces]
    simp only [AmountText.sign_mem_iff, AmountText.scaled]
  · rw [AmountText.scaled] at hsmall hnonneg
    split_ifs
    · rwa [abs_neg, abs_of_nonneg hnonneg]
    · rwa [abs_of_nonneg hnonneg]

/-- The strings of which a wrong number is read. -/
lemma readsRight_iff (hp : precision < 19) : ReadsRight precision s ↔ ¬ Misread precision s := by
  constructor
  · rintro h ⟨hsign, w, f, hread⟩
    obtain ⟨⟨A, rfl, -⟩, -⟩ := h _ ((amountFromString_eq_ok_iff hp).mpr ⟨w, f, hread, rfl⟩)
    exact A.sign_not_mem_tail hsign
  · intro h r hr
    obtain ⟨w, f, hread, -⟩ := (amountFromString_eq_ok_iff hp).mp hr
    have hsign : '-' ∉ s.tail := fun hsign => h ⟨hsign, w, f, hread⟩
    obtain ⟨A, rfl⟩ := AmountText.exists_text hread.chars hread.onePoint hsign
    exact A.readsRight hp r hr

/-! ### Writing and reading -/

/-- An amount is read as it was written. -/
def RoundTrips (precision : ℕ) (x : ℤ) : Prop :=
  ∃ s, amountToString precision x = .ok s ∧ amountFromString precision s = .ok x

lemma scaleLoop_eq (hp : precision < 19) : scaleLoop precision = .ok (10 ^ precision) := by
  induction precision with
  | zero => rfl
  | succ p ih =>
      rw [scaleLoop, ih (by omega), except_ok_bind, safe_mul_eq_ok]
      have hle : (10 : ℤ) ^ p ≤ 10 ^ 17 := pow_le_pow_right₀ (by norm_num) (by omega)
      have hpos : (0 : ℤ) < 10 ^ p := by positivity
      exact ⟨⟨by omega, by omega⟩, pow_succ _ _⟩

lemma isDigit_le (hc : c.isDigit = true) : c.toNat - 48 ≤ 9 := by
  rw [Char.isDigit, Bool.and_eq_true, decide_eq_true_eq, decide_eq_true_eq] at hc
  have hle : c.toNat ≤ 57 := UInt32.le_iff_toNat_le.mp hc.2
  omega

/-- The first digit, and the others. -/
lemma ofDigitChars_cons_eq (c : Char) (l : List Char) : Nat.ofDigitChars 10 (c :: l) 0 =
    (c.toNat - 48) * 10 ^ l.length + Nat.ofDigitChars 10 l 0 := by
  have hzero : '0'.toNat = 48 := rfl
  rw [Nat.ofDigitChars_cons, Nat.ofDigitChars_eq_ofDigitChars_zero, hzero]
  ring

lemma ofDigitChars_lt (hl : ∀ c ∈ l, c.isDigit = true) :
    Nat.ofDigitChars 10 l 0 < 10 ^ l.length := by
  induction l with
  | nil => simp
  | cons c l ih =>
      have hlt := ih fun c hc => hl c (List.mem_cons_of_mem _ hc)
      have hc := isDigit_le (hl c List.mem_cons_self)
      calc Nat.ofDigitChars 10 (c :: l) 0
          = (c.toNat - 48) * 10 ^ l.length + Nat.ofDigitChars 10 l 0 := ofDigitChars_cons_eq c l
        _ < 9 * 10 ^ l.length + 10 ^ l.length :=
            add_lt_add_of_le_of_lt (Nat.mul_le_mul_right _ hc) hlt
        _ = 10 ^ (c :: l).length := by
            rw [List.length_cons, pow_succ]
            ring

/-- The digits of a number: the first of them is not zero. -/
lemma toDigits_eq {n : ℕ} (hn : 0 < n) : ∃ c l a, Nat.toDigits 10 n = c :: l ∧
    (∀ c ∈ l, c.isDigit = true) ∧ 1 ≤ a ∧ a ≤ 9 ∧ n = a * 10 ^ l.length + Nat.ofDigitChars 10 l 0 := by
  obtain ⟨c, l, hdigits⟩ := List.exists_cons_of_ne_nil (Nat.toDigits_ne_nil (n := n) (b := 10))
  have hall : ∀ d ∈ c :: l, d.isDigit = true := fun d hd =>
    Nat.isDigit_of_mem_toDigits (by norm_num) (by norm_num) (hdigits ▸ hd)
  have hl : ∀ c ∈ l, c.isDigit = true := fun d hd => hall d (List.mem_cons_of_mem _ hd)
  have hvalue : n = (c.toNat - 48) * 10 ^ l.length + Nat.ofDigitChars 10 l 0 := by
    rw [← ofDigitChars_cons_eq, ← hdigits, Nat.ofDigitChars_ten_toDigits]
  refine ⟨c, l, c.toNat - 48, hdigits, hl, ?_, isDigit_le (hall c List.mem_cons_self), hvalue⟩
  by_contra hzero
  have hlt : n < 10 ^ l.length := by
    rw [hvalue, show c.toNat - 48 = 0 by omega, zero_mul, zero_add]
    exact ofDigitChars_lt hl
  rcases Nat.eq_zero_or_pos l.length with h0 | hpos
  · rw [h0, pow_zero] at hlt
    omega
  · have hle := (Nat.length_toDigits_le_iff (by norm_num) hpos).mpr hlt
    rw [hdigits, List.length_cons] at hle
    omega

/-- The text of an amount whose parts are written on their own. -/
def writtenText (q : ℤ) (fraction : Option (List Char))
    (h : ∀ l, fraction = some l → ∀ c ∈ l, c.isDigit = true) : AmountText where
  negative := decide (q < 0)
  whole := Nat.toDigits 10 q.natAbs
  fraction := fraction
  whole_digits _ hc := Nat.isDigit_of_mem_toDigits (by norm_num) (by norm_num) hc
  fraction_digits := h

lemma text_writtenText {q : ℤ} {fraction : Option (List Char)}
    {h : ∀ l, fraction = some l → ∀ c ∈ l, c.isDigit = true} :
    (writtenText q fraction h).text = toString64 q ++ fraction.elim [] ('.' :: ·) := by
  rw [AmountText.text, AmountText.sign, toString64]
  by_cases hq : q < 0
  · simp [writtenText, AmountText.rest, hq]
  · simp [writtenText, AmountText.rest, hq]

/-- What is written is read again, if it is not too much. -/
lemma amountFromString_writtenText {q x : ℤ} {fraction : Option (List Char)}
    {h : ∀ l, fraction = some l → ∀ c ∈ l, c.isDigit = true} (hp : precision < 19)
    (hplaces : (writtenText q fraction h).places ≤ precision) :
    amountFromString precision (writtenText q fraction h).text = .ok x ↔
      (writtenText q fraction h).scaled precision ≤ maxBitcoreSupply ∧
        x = if q < 0 then -(writtenText q fraction h).scaled precision
          else (writtenText q fraction h).scaled precision := by
  have hsign : '-' ∈ (writtenText q fraction h).text ↔ q < 0 := by
    rw [AmountText.sign_mem_iff]
    exact decide_eq_true_iff
  simp only [amountFromString_eq_ok_iff hp, hsign, AmountText.readable_iff]
  constructor
  · rintro ⟨w, f, ⟨-, -, rfl, rfl, hsmall⟩, rfl⟩
    exact ⟨hsmall, rfl⟩
  · rintro ⟨hsmall, rfl⟩
    exact ⟨_, _, ⟨fun _ => Nat.toDigits_ne_nil, hplaces, rfl, rfl, hsmall⟩, rfl⟩

lemma digitsValue_toDigits (n : ℕ) : digitsValue (Nat.toDigits 10 n) = n := by
  rw [digitsValue, Nat.ofDigitChars_ten_toDigits]

/-- The digits of an amount that is less than a unit, with their zeros, stand after one more. -/
lemma digits_after_one {d : ℕ} (hd : d < 10 ^ precision) :
    ∃ c l, Nat.toDigits 10 (10 ^ precision + d) = c :: l ∧ (∀ c ∈ l, c.isDigit = true) ∧
      l.length = precision ∧ digitsValue l = d := by
  have hpos : 0 < 10 ^ precision := by positivity
  obtain ⟨c, l, a, hdigits, hl, ha1, ha9, hvalue⟩ := toDigits_eq (n := 10 ^ precision + d) (by omega)
  have hlt := ofDigitChars_lt hl
  have hlength : l.length = precision := by
    refine le_antisymm ?_ ?_
    · by_contra hgt
      have hle : 10 ^ (precision + 1) ≤ 10 ^ l.length := Nat.pow_le_pow_right (by norm_num) (by omega)
      have hmul : 1 * 10 ^ l.length ≤ a * 10 ^ l.length := Nat.mul_le_mul_right _ ha1
      rw [pow_succ] at hle
      omega
    · by_contra hlt'
      have hle : 10 ^ (l.length + 1) ≤ 10 ^ precision := Nat.pow_le_pow_right (by norm_num) (by omega)
      have hmul : a * 10 ^ l.length ≤ 9 * 10 ^ l.length := Nat.mul_le_mul_right _ ha9
      rw [pow_succ] at hle
      omega
  rw [hlength] at hlt hvalue
  have ha : a = 1 := by
    by_contra ha
    have hmul : 2 * 10 ^ precision ≤ a * 10 ^ precision := Nat.mul_le_mul_right _ (by omega)
    omega
  refine ⟨c, l, hdigits, hl, hlength, ?_⟩
  rw [ha, one_mul] at hvalue
  rw [digitsValue]
  omega

/-- What is written after the point of a negative amount is never what it should be. -/
lemma not_mirrored {p k a v m : ℕ} (hk : k < p) (ha1 : 1 ≤ a) (ha9 : a ≤ 9)
    (hm : m + (a * 10 ^ k + v) = 10 ^ p) : v * 10 ^ (p - k) ≠ m := by
  intro h
  obtain ⟨j, rfl⟩ : ∃ j, p = k + (j + 1) := ⟨p - k - 1, by omega⟩
  rw [show k + (j + 1) - k = j + 1 by omega] at h
  have hten : 1 ≤ 10 ^ j := Nat.one_le_pow _ _ (by norm_num)
  have heq : v * (10 ^ (j + 1) + 1) = 10 ^ k * (10 ^ (j + 1) - a) := by
    have hle : a ≤ 10 ^ (j + 1) := by
      rw [pow_succ]
      omega
    zify [hle] at *
    rw [pow_add] at hm
    linarith
  have hcoprime : Nat.Coprime (10 ^ (j + 1) + 1) (10 ^ k) := by
    refine Nat.Coprime.pow_right k ?_
    rw [pow_succ]
    simp
  have hdvd : 10 ^ (j + 1) + 1 ∣ 10 ^ (j + 1) - a :=
    hcoprime.dvd_of_dvd_mul_left (Dvd.intro_left v heq)
  have hle := Nat.le_of_dvd (by rw [pow_succ]; omega) hdvd
  omega

lemma scale_bounds (hp : precision ≤ 12) :
    (1 : ℤ) ≤ 10 ^ precision ∧ (10 : ℤ) ^ precision ≤ 1000000000000 :=
  ⟨one_le_pow₀ (by norm_num), pow_le_pow_right₀ (by norm_num : (1 : ℤ) ≤ 10) hp⟩

lemma amountToString_eq {x : ℤ} (hp : precision ≤ 12) : amountToString precision x = .ok
    (toString64 (x.tdiv (10 ^ precision)) ++ if x.tmod (10 ^ precision) = 0 then []
      else '.' :: (toString64 (10 ^ precision + x.tmod (10 ^ precision))).drop 1) := by
  obtain ⟨hlo, hhi⟩ := scale_bounds hp
  rw [amountToString, scaleLoop_eq (by omega), except_ok_bind]
  split_ifs with hd
  · rw [if_neg (not_not.mpr hd), List.append_nil]
    rfl
  · have hlt := Int.tmod_lt_of_pos x (by omega : (0 : ℤ) < 10 ^ precision)
    have hgt := Int.lt_tmod_of_pos x (by omega : (0 : ℤ) < 10 ^ precision)
    have hadd : Safe.add (10 ^ precision) (x.tmod (10 ^ precision)) =
        .ok (10 ^ precision + x.tmod (10 ^ precision)) :=
      (safe_add_eq_ok ⟨by omega, by omega⟩).mpr ⟨⟨by omega, by omega⟩, rfl⟩
    rw [if_pos hd, hadd]
    rfl

lemma roundTrips_writtenText {q x : ℤ} {fraction : Option (List Char)}
    {h : ∀ l, fraction = some l → ∀ c ∈ l, c.isDigit = true} (hp : precision ≤ 12)
    (hwritten : amountToString precision x = .ok (writtenText q fraction h).text)
    (hplaces : (writtenText q fraction h).places ≤ precision) :
    RoundTrips precision x ↔ (writtenText q fraction h).scaled precision ≤ maxBitcoreSupply ∧
      x = if q < 0 then -(writtenText q fraction h).scaled precision
        else (writtenText q fraction h).scaled precision := by
  rw [← amountFromString_writtenText (by omega) hplaces, RoundTrips, hwritten]
  constructor
  · rintro ⟨s, hs, hread⟩
    cases hs
    exact hread
  · exact fun hread => ⟨_, rfl, hread⟩

/-- Whole units are read as they were written. -/
lemma roundTrips_of_dvd {x : ℤ} (hp : precision ≤ 12) (hx : |x| ≤ maxBitcoreSupply)
    (hdvd : (10 : ℤ) ^ precision ∣ x) : RoundTrips precision x := by
  obtain ⟨hlo, hhi⟩ := scale_bounds hp
  have hmod := Int.tmod_eq_zero_of_dvd hdvd
  have hdiv := Int.tdiv_mul_cancel_of_tmod_eq_zero hmod
  have hwritten : amountToString precision x =
      .ok (writtenText (x.tdiv (10 ^ precision)) none nofun).text := by
    rw [amountToString_eq hp, hmod, if_pos rfl, text_writtenText, Option.elim_none]
  have hscaled : (writtenText (x.tdiv (10 ^ precision)) none nofun).scaled precision = |x| := by
    have hwhole : digitsValue (Nat.toDigits 10 (x.tdiv (10 ^ precision)).natAbs) =
        |x.tdiv (10 ^ precision)| := by
      rw [digitsValue_toDigits, Int.natCast_natAbs]
    rw [AmountText.scaled, AmountText.scaledFraction, writtenText, hwhole]
    simp only [Option.getD_none, digitsValue, Nat.ofDigitChars_nil, Nat.cast_zero, zero_mul, add_zero]
    calc |x.tdiv (10 ^ precision)| * 10 ^ precision
        = |x.tdiv (10 ^ precision)| * |10 ^ precision| := by
          rw [abs_of_pos (by omega : (0 : ℤ) < 10 ^ precision)]
      _ = |x| := by rw [← abs_mul, hdiv]
  refine (roundTrips_writtenText hp hwritten (Nat.zero_le _)).mpr ⟨hscaled ▸ hx, ?_⟩
  rw [hscaled]
  split_ifs with hq
  · have hneg : x < 0 := by
      rw [← hdiv]
      exact mul_neg_of_neg_of_pos hq (by omega)
    rw [abs_of_neg hneg, neg_neg]
  · have hnonneg : 0 ≤ x := by
      rw [← hdiv]
      exact mul_nonneg (by omega) (by omega)
    rw [abs_of_nonneg hnonneg]

/-- An amount with a fraction whose digits are `l`. -/
lemma amountToString_of_sum {x : ℤ} {c : Char} {l : List Char} (hp : precision ≤ 12)
    (hmod : x.tmod (10 ^ precision) ≠ 0)
    (hsum : toString64 (10 ^ precision + x.tmod (10 ^ precision)) = c :: l)
    (hl : ∀ c ∈ l, c.isDigit = true) :
    ∃ hall, amountToString precision x =
      .ok (writtenText (x.tdiv (10 ^ precision)) (some l) hall).text := by
  have hall : ∀ l', some l = some l' → ∀ c ∈ l', c.isDigit = true := by
    intro l' hl'
    cases hl'
    exact hl
  refine ⟨hall, ?_⟩
  rw [amountToString_eq hp, if_neg hmod, hsum, text_writtenText]
  rfl

/-- Amounts that are not negative are read as they were written. -/
lemma roundTrips_of_nonneg {x : ℤ} (hp : precision ≤ 12) (hx : |x| ≤ maxBitcoreSupply) (h0 : 0 ≤ x)
    (hdvd : ¬ (10 : ℤ) ^ precision ∣ x) : RoundTrips precision x := by
  obtain ⟨hlo, hhi⟩ := scale_bounds hp
  have hdiv := Int.mul_tdiv_add_tmod x (10 ^ precision)
  have hq := Int.tdiv_nonneg h0 (by omega : (0 : ℤ) ≤ 10 ^ precision)
  have hmod : x.tmod (10 ^ precision) ≠ 0 := fun h => hdvd (Int.dvd_of_tmod_eq_zero h)
  obtain ⟨d, hd⟩ := Int.eq_ofNat_of_zero_le (Int.tmod_nonneg (10 ^ precision) h0)
  have hlt : d < 10 ^ precision := by
    have hlt := Int.tmod_lt_of_pos x (by omega : (0 : ℤ) < 10 ^ precision)
    rw [hd] at hlt
    exact_mod_cast hlt
  obtain ⟨c, l, hdigits, hl, hlength, hvalue⟩ := digits_after_one hlt
  have hsum : toString64 (10 ^ precision + x.tmod (10 ^ precision)) = c :: l := by
    have hcast : (10 : ℤ) ^ precision + x.tmod (10 ^ precision) = (10 ^ precision + d : ℕ) := by
      rw [hd]
      push_cast
      rfl
    rw [toString64, hcast, if_neg (by omega), Int.natAbs_natCast, hdigits]
  obtain ⟨hall, hwritten⟩ := amountToString_of_sum hp hmod hsum hl
  have hplaces : (writtenText (x.tdiv (10 ^ precision)) (some l) hall).places = precision := hlength
  have hscaled : (writtenText (x.tdiv (10 ^ precision)) (some l) hall).scaled precision = x := by
    rw [AmountText.scaled, AmountText.scaledFraction, hplaces, Nat.sub_self, pow_zero, mul_one]
    simp only [writtenText, Option.getD_some]
    rw [hvalue, digitsValue_toDigits, Int.natAbs_of_nonneg hq]
    rw [hd] at hdiv
    linarith
  refine (roundTrips_writtenText hp hwritten hplaces.le).mpr ⟨?_, ?_⟩
  · rw [hscaled]
    exact (le_abs_self x).trans hx
  · rw [hscaled, if_neg (not_lt.mpr hq)]

/-- Negative amounts with a fraction are not. -/
lemma not_roundTrips {x : ℤ} (hp : precision ≤ 12) (h0 : x < 0) (hdvd : ¬ (10 : ℤ) ^ precision ∣ x) :
    ¬ RoundTrips precision x := by
  obtain ⟨hlo, hhi⟩ := scale_bounds hp
  have hdiv := Int.mul_tdiv_add_tmod x (10 ^ precision)
  have hq : x.tdiv (10 ^ precision) ≤ 0 := by
    have hneg := Int.tdiv_nonneg (by omega : 0 ≤ -x) (by omega : (0 : ℤ) ≤ 10 ^ precision)
    rw [Int.neg_tdiv] at hneg
    omega
  have hmod : x.tmod (10 ^ precision) ≠ 0 := fun h => hdvd (Int.dvd_of_tmod_eq_zero h)
  obtain ⟨m, hm⟩ : ∃ m : ℕ, x.tmod (10 ^ precision) = -m := by
    have hneg := Int.tmod_nonneg (10 ^ precision) (by omega : 0 ≤ -x)
    rw [Int.neg_tmod] at hneg
    obtain ⟨m, hm⟩ := Int.eq_ofNat_of_zero_le hneg
    exact ⟨m, by omega⟩
  have hgt := Int.lt_tmod_of_pos x (by omega : (0 : ℤ) < 10 ^ precision)
  have hm0 : 0 < m := by omega
  have hmlt : m < 10 ^ precision := by
    rw [hm] at hgt
    exact_mod_cast neg_lt_neg_iff.mp hgt
  obtain ⟨c, l, a, hdigits, hl, ha1, ha9, hvalue⟩ := toDigits_eq (n := 10 ^ precision - m) (by omega)
  have hk : l.length < precision := by
    by_contra hle
    have hpow : 10 ^ precision ≤ 10 ^ l.length := Nat.pow_le_pow_right (by norm_num) (by omega)
    have hmul : 1 * 10 ^ l.length ≤ a * 10 ^ l.length := Nat.mul_le_mul_right _ ha1
    omega
  have hsum : toString64 (10 ^ precision + x.tmod (10 ^ precision)) = c :: l := by
    have hcast : (10 : ℤ) ^ precision + x.tmod (10 ^ precision) = (10 ^ precision - m : ℕ) := by
      rw [hm, Nat.cast_sub hmlt.le]
      push_cast
      ring
    rw [toString64, hcast, if_neg (by omega), Int.natAbs_natCast, hdigits]
  obtain ⟨hall, hwritten⟩ := amountToString_of_sum hp hmod hsum hl
  have hscaled : (writtenText (x.tdiv (10 ^ precision)) (some l) hall).scaled precision =
      -x.tdiv (10 ^ precision) * 10 ^ precision +
        (Nat.ofDigitChars 10 l 0 * 10 ^ (precision - l.length) : ℕ) := by
    rw [AmountText.scaled, AmountText.scaledFraction]
    simp only [writtenText, Option.getD_some, AmountText.places, Option.elim_some]
    rw [digitsValue_toDigits, Int.ofNat_natAbs_of_nonpos hq, digitsValue]
    push_cast
    rfl
  have hsplit : m + (a * 10 ^ l.length + Nat.ofDigitChars 10 l 0) = 10 ^ precision := by omega
  rw [hm] at hdiv
  rw [roundTrips_writtenText hp hwritten hk.le, hscaled]
  rintro ⟨-, hx⟩
  split_ifs at hx with hneg
  · refine not_mirrored hk ha1 ha9 hsplit ?_
    have hcast : ((Nat.ofDigitChars 10 l 0 * 10 ^ (precision - l.length) : ℕ) : ℤ) = m := by
      linarith
    exact_mod_cast hcast
  · have hq0 : x.tdiv (10 ^ precision) = 0 := by omega
    rw [hq0, neg_zero, zero_mul, zero_add] at hx
    omega

/-- **Writing and reading.** An amount is read as it was written exactly if it is not negative, or a
whole number of units. -/
theorem roundTrips_iff {x : ℤ} (hp : precision ≤ 12) (hx : |x| ≤ maxBitcoreSupply) :
    RoundTrips precision x ↔ 0 ≤ x ∨ (10 : ℤ) ^ precision ∣ x := by
  by_cases hdvd : (10 : ℤ) ^ precision ∣ x
  · exact iff_of_true (roundTrips_of_dvd hp hx hdvd) (.inr hdvd)
  · rcases lt_or_ge x 0 with h0 | h0
    · refine iff_of_false (not_roundTrips hp h0 hdvd) ?_
      rintro (h | h)
      · omega
      · exact hdvd h
    · exact iff_of_true (roundTrips_of_nonneg hp hx h0 hdvd) (.inl h0)

/-! ### Both directions -/

/-- **Amounts as strings.** With at most twelve decimals, exactly the amounts that are not negative or
are whole units are read as they were written; and only the number is read that a string stands for,
unless there is a sign after the first character and the string is not refused. -/
theorem amountStrings (hp : precision ≤ 12) :
    (∀ x, |x| ≤ maxBitcoreSupply →
      (RoundTrips precision x ↔ 0 ≤ x ∨ (10 : ℤ) ^ precision ∣ x)) ∧
    ∀ s, ReadsRight precision s ↔ ¬ Misread precision s :=
  ⟨fun _ hx => roundTrips_iff hp hx, fun _ => readsRight_iff (by omega)⟩

/-- One and a half units, with five decimals. -/
theorem amountStrings_five :
    (RoundTrips 5 150000 ↔ 0 ≤ (150000 : ℤ) ∨ (10 : ℤ) ^ 5 ∣ 150000) ∧
      (ReadsRight 5 "1.5".toList ↔ ¬ Misread 5 "1.5".toList) :=
  ⟨(amountStrings (by norm_num)).1 150000 (by decide), (amountStrings (by norm_num)).2 _⟩

/-- The smallest negative amount is not read as it was written, and a sign within a number is read. -/
theorem not_roundTrips_and_readsRight : ¬ RoundTrips 5 (-1) ∧ ¬ ReadsRight 5 "1-2".toList := by
  constructor
  · rw [roundTrips_iff (by norm_num) (by decide)]
    decide
  · intro h
    have hread : amountFromString 5 "1-2".toList = .ok 200000 := by decide +kernel
    obtain ⟨⟨A, htext, -⟩, -⟩ := h _ hread
    have hsign := A.sign_not_mem_tail
    rw [htext] at hsign
    exact hsign (by decide)

end ZosCore
