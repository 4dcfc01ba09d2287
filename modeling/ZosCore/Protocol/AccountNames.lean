import Mathlib.Tactic

/-!
The names of accounts (`protocol/account.cpp`).

A `std::string` is a string whose characters are its bytes.

* `isValidName`: the loop over the labels of the name in small letters.
* `IsLabel`, `Labels`, `IsName`: the grammar of the names.
* `isValidNameFrom_iff`: the loop accepts the labels of the grammar.
* **`isValidName_iff`**: a name is valid exactly if, in small letters, it is in the grammar.
-/

namespace ZosCore

/-- `GRAPHENE_MIN_ACCOUNT_NAME_LENGTH` -/
def minAccountNameLength : ℕ := 1

/-- `GRAPHENE_MAX_ACCOUNT_NAME_LENGTH` -/
def maxAccountNameLength : ℕ := 63

/-! ### The function -/

/-- The first `switch`. -/
def isLetter (c : Char) : Bool := 'a' ≤ c && c ≤ 'z'

/-- The second `switch`. -/
def isLetDig (c : Char) : Bool := isLetter c || ('0' ≤ c && c ≤ '9')

/-- The third `switch`. -/
def isLetDigHyp (c : Char) : Bool := isLetDig c || c = '-'

/-- `boost::algorithm::to_lower`, in the locale of the program. -/
def toLower (s : List Char) : List Char := s.map Char.toLower

/-- `name.find_first_of( '.', begin )`, and the end of the name if there is none. -/
def labelEnd (name : List Char) (start : ℕ) : ℕ :=
  start + (name.drop start).findIdx (· = '.')

/-- What a round of the loop asks of the label from `start` to `stop`. -/
def isLabelAt (name : List Char) (start stop : ℕ) : Bool :=
  minAccountNameLength ≤ stop - start && name[start]?.any isLetter && name[stop - 1]?.any isLetDig &&
    (List.range' (start + 1) (stop - 1 - (start + 1))).all fun i => name[i]?.any isLetDigHyp

lemma labelEnd_le {name : List Char} {start : ℕ} (h : start ≤ name.length) :
    labelEnd name start ≤ name.length := by
  have hle : (name.drop start).findIdx (fun c => decide (c = '.')) ≤ (name.drop start).length :=
    List.findIdx_le_length
  rw [List.length_drop] at hle
  rw [labelEnd]
  omega

lemma lt_length_of_isLabelAt {name : List Char} {start stop : ℕ}
    (h : isLabelAt name start stop = true) : start < name.length := by
  by_contra hle
  rw [isLabelAt, List.getElem?_eq_none (by omega)] at h
  simp at h

/-- The loop over the labels. -/
def isValidNameFrom (name : List Char) (start : ℕ) : Bool :=
  if h : isLabelAt name start (labelEnd name start) = true then
    if labelEnd name start = name.length then true
    else isValidNameFrom name (labelEnd name start + 1)
  else false
  termination_by name.length - start
  decreasing_by
    have hlt := lt_length_of_isLabelAt h
    have hle : start ≤ labelEnd name start := Nat.le_add_right _ _
    omega

/-- `is_valid_name` -/
def isValidName (s : String) : Bool :=
  let name := toLower s.toList
  if name.length < minAccountNameLength then false
  else if maxAccountNameLength < name.length then false
  else isValidNameFrom name 0

/-! ### The grammar -/

/-- A label: it starts with a letter, ends with a letter or a digit, and has letters, digits and
hyphens only. All letters are lowercase. -/
structure IsLabel (l : List Char) : Prop where
  minimum : minAccountNameLength ≤ l.length
  first : ∃ c, l.head? = some c ∧ isLetter c = true
  last : ∃ c, l.getLast? = some c ∧ isLetDig c = true
  letDigHyp : ∀ c ∈ l, isLetDigHyp c = true

/-- Labels with dots between them. -/
inductive Labels : List Char → Prop
  | label {l : List Char} (h : IsLabel l) : Labels l
  | dot {l rest : List Char} (h : IsLabel l) (hrest : Labels rest) : Labels (l ++ '.' :: rest)

/-- The documented grammar of names. -/
structure IsName (s : List Char) : Prop where
  minimum : minAccountNameLength ≤ s.length
  maximum : s.length ≤ maxAccountNameLength
  labels : Labels s

variable {name l rest : List Char} {start stop : ℕ} {c : Char}

lemma isLetDigHyp_of_isLetter (h : isLetter c = true) : isLetDigHyp c = true := by
  simp [isLetDigHyp, isLetDig, h]

lemma isLetDigHyp_of_isLetDig (h : isLetDig c = true) : isLetDigHyp c = true := by
  simp [isLetDigHyp, h]

lemma isLetDigHyp_dot : isLetDigHyp '.' = false := by decide

lemma IsLabel.ne_dot (h : IsLabel l) (hc : c ∈ l) : c ≠ '.' := by
  rintro rfl
  have hdot := h.letDigHyp _ hc
  rw [isLetDigHyp_dot] at hdot
  exact absurd hdot Bool.false_ne_true

/-! ### The loop and the grammar -/

/-- A round accepts the labels of the grammar. -/
lemma isLabelAt_iff (hstop : start + l.length = stop) (hl : l <+: name.drop start) :
    isLabelAt name start stop = true ↔ IsLabel l := by
  have hread : ∀ i, i < l.length → name[start + i]? = l[i]? := fun i hi => by
    obtain ⟨t, ht⟩ := hl
    rw [← List.getElem?_drop, ← ht, List.getElem?_append_left hi]
  have hlength : stop - start = l.length := by omega
  rcases Nat.eq_zero_or_pos l.length with hzero | hpos
  · refine iff_of_false (fun h => ?_) fun h => ?_
    · simp [isLabelAt, hlength, hzero, minAccountNameLength] at h
    · have hminimum := h.minimum
      rw [minAccountNameLength] at hminimum
      omega
  · have hfirst : name[start]? = l.head? := by
      rw [List.head?_eq_getElem?]
      exact hread 0 hpos
    have hlast : name[stop - 1]? = l.getLast? := by
      rw [List.getLast?_eq_getElem?, ← hread (l.length - 1) (by omega)]
      congr 1
      omega
    rw [isLabelAt, hlength, hfirst, hlast]
    simp only [Bool.and_eq_true, decide_eq_true_eq, Option.any_eq_true, List.all_eq_true,
      List.mem_range'_1]
    refine ⟨fun ⟨⟨⟨hminimum, hf⟩, hla⟩, hmiddle⟩ => ⟨hminimum, hf, hla, fun c hc => ?_⟩,
      fun h => ⟨⟨⟨h.minimum, h.first⟩, h.last⟩, fun i hi => ?_⟩⟩
    · obtain ⟨i, hi, rfl⟩ := List.mem_iff_getElem.mp hc
      rcases Nat.eq_zero_or_pos i with rfl | hi0
      · obtain ⟨c, hc, hletter⟩ := hf
        rw [List.head?_eq_getElem?, List.getElem?_eq_getElem hi] at hc
        exact Option.some.inj hc ▸ isLetDigHyp_of_isLetter hletter
      · rcases Nat.lt_or_ge i (l.length - 1) with hi1 | hi1
        · obtain ⟨c, hc, hldh⟩ := hmiddle (start + i) (by omega)
          rw [hread i hi, List.getElem?_eq_getElem hi] at hc
          exact Option.some.inj hc ▸ hldh
        · obtain ⟨c, hc, hletdig⟩ := hla
          rw [List.getLast?_eq_getElem?, show l.length - 1 = i by omega,
            List.getElem?_eq_getElem hi] at hc
          exact Option.some.inj hc ▸ isLetDigHyp_of_isLetDig hletdig
    · have hlt : i - start < l.length := by omega
      have hat := hread (i - start) hlt
      rw [Nat.add_sub_cancel' (by omega), List.getElem?_eq_getElem hlt] at hat
      exact ⟨_, hat, h.letDigHyp _ (List.getElem_mem hlt)⟩

/-- What is left of a name is the label of the round, and after a dot the rest of the labels. -/
lemma exists_label (hstart : start ≤ name.length) :
    ∃ l, (∀ c ∈ l, c ≠ '.') ∧ labelEnd name start = start + l.length ∧
      (labelEnd name start = name.length ∧ name.drop start = l ∨
        labelEnd name start ≠ name.length ∧
          name.drop start = l ++ '.' :: name.drop (labelEnd name start + 1)) := by
  have hle := labelEnd_le hstart
  have hfind : (name.drop start).findIdx (fun c => decide (c = '.')) ≤ (name.drop start).length :=
    List.findIdx_le_length
  refine ⟨(name.drop start).take ((name.drop start).findIdx (· = '.')), fun c hc => ?_, ?_, ?_⟩
  · obtain ⟨i, hi, rfl⟩ := List.mem_take_iff_getElem.mp hc
    exact of_decide_eq_false
      (List.not_of_lt_findIdx (p := fun c => decide (c = '.')) (hi.trans_le (min_le_left _ _)))
  · rw [labelEnd, List.length_take_of_le hfind]
  · by_cases hend : labelEnd name start = name.length
    · refine .inl ⟨hend, ?_⟩
      rw [labelEnd] at hend
      rw [List.take_of_length_le]
      rw [List.length_drop]
      omega
    · refine .inr ⟨hend, ?_⟩
      have hlt : (name.drop start).findIdx (· = '.') < (name.drop start).length := by
        rw [labelEnd] at hend hle
        rw [List.length_drop]
        omega
      have hdot : (name.drop start)[(name.drop start).findIdx (· = '.')] = '.' :=
        of_decide_eq_true (List.findIdx_getElem (w := hlt))
      conv_lhs => rw [← List.take_append_drop ((name.drop start).findIdx (· = '.')) (name.drop start)]
      rw [List.drop_eq_getElem_cons hlt, hdot, List.drop_drop]
      congr 2

/-- There is one way to split off the first label. -/
lemma labels_append_iff (hl : ∀ c ∈ l, c ≠ '.') :
    Labels (l ++ '.' :: rest) ↔ IsLabel l ∧ Labels rest := by
  refine ⟨fun h => ?_, fun h => .dot h.1 h.2⟩
  have hsplit : ∀ l rest : List Char, (∀ c ∈ l, c ≠ '.') →
      (l ++ '.' :: rest).takeWhile (fun c => decide (c ≠ '.')) = l := fun l rest hl => by
    rw [List.takeWhile_append_of_pos fun c hc => decide_eq_true (hl c hc)]
    simp
  generalize hs : l ++ '.' :: rest = s at h
  cases h with
  | label h => exact absurd rfl (h.ne_dot (hs ▸ by simp))
  | @dot l' rest' h hrest =>
      have heq : l = l' := by
        rw [← hsplit l rest hl, hs, hsplit l' rest' fun c hc => h.ne_dot hc]
      subst heq
      have hrest' := List.append_cancel_left hs
      rw [List.cons.injEq] at hrest'
      exact ⟨h, hrest'.2 ▸ hrest⟩

lemma labels_iff_of_no_dot (hl : ∀ c ∈ l, c ≠ '.') : Labels l ↔ IsLabel l := by
  refine ⟨fun h => ?_, .label⟩
  cases h with
  | label h => exact h
  | dot h hrest => exact absurd rfl (hl '.' (by simp))

/-- **The loop accepts the labels of the grammar.** -/
theorem isValidNameFrom_iff (name : List Char) (start : ℕ) (hstart : start ≤ name.length) :
    isValidNameFrom name start = true ↔ Labels (name.drop start) := by
  obtain ⟨l, hl, hend, hcases⟩ := exists_label hstart
  fun_induction isValidNameFrom name start generalizing l with
  | case1 start h hstop =>
      rcases hcases with ⟨-, hdrop⟩ | ⟨hne, -⟩
      · rw [isLabelAt_iff hend.symm (hdrop ▸ List.prefix_rfl)] at h
        rw [hdrop, labels_iff_of_no_dot hl]
        exact iff_of_true rfl h
      · exact absurd hstop hne
  | case2 start h hstop ih =>
      rcases hcases with ⟨hlast, -⟩ | ⟨-, hdrop⟩
      · exact absurd hlast hstop
      · have hnext : labelEnd name start + 1 ≤ name.length := by
          have := labelEnd_le hstart
          omega
        obtain ⟨l', hl', hend', hcases'⟩ := exists_label hnext
        rw [isLabelAt_iff hend.symm (hdrop ▸ List.prefix_append _ _)] at h
        rw [hdrop, labels_append_iff hl, ih hnext l' hl' hend' hcases']
        exact (and_iff_right h).symm
  | case3 start h =>
      have hno : ¬ IsLabel l := fun hlabel => h <| by
        rcases hcases with ⟨-, hdrop⟩ | ⟨-, hdrop⟩
        · exact (isLabelAt_iff hend.symm (hdrop ▸ List.prefix_rfl)).mpr hlabel
        · exact (isLabelAt_iff hend.symm (hdrop ▸ List.prefix_append _ _)).mpr hlabel
      refine iff_of_false Bool.false_ne_true ?_
      rcases hcases with ⟨-, hdrop⟩ | ⟨-, hdrop⟩
      · rwa [hdrop, labels_iff_of_no_dot hl]
      · rw [hdrop, labels_append_iff hl]
        exact fun hboth => hno hboth.1

/-- **The names that are valid.** In small letters, they are those of the grammar. -/
theorem isValidName_iff (s : String) : isValidName s = true ↔ IsName (toLower s.toList) := by
  rw [isValidName]
  split_ifs with hmin hmax
  · exact iff_of_false id fun h => absurd h.minimum (by omega)
  · exact iff_of_false id fun h => absurd h.maximum (by omega)
  · rw [isValidNameFrom_iff _ _ (Nat.zero_le _), List.drop_zero]
    exact ⟨fun h => ⟨by omega, by omega, h⟩, fun h => h.labels⟩

/-! ### Capital letters -/

/-- A name without capital letters is its own form in small letters. -/
lemma toLower_eq_self {s : List Char} (h : ∀ c ∈ s, c.isUpper = false) : toLower s = s := by
  have hself : ∀ c ∈ s, c.toLower = c := fun c hc => by
    exact dif_neg (of_decide_eq_false (h c hc))
  rw [toLower, List.map_congr_left hself, List.map_id']

/-- A letter, digit or hyphen is not a capital letter. -/
lemma not_isUpper (h : isLetDigHyp c = true) : c.isUpper = false := by
  have ha : 'a'.val.toNat = 97 ∧ '9'.val.toNat = 57 ∧ '-'.val.toNat = 45 := ⟨rfl, rfl, rfl⟩
  have hA : 'A'.val.toNat = 65 ∧ 'Z'.val.toNat = 90 := ⟨rfl, rfl⟩
  refine decide_eq_false ?_
  rw [ge_iff_le, UInt32.le_iff_toNat_le, UInt32.le_iff_toNat_le]
  simp only [isLetDigHyp, isLetDig, isLetter, Bool.or_eq_true, Bool.and_eq_true,
    decide_eq_true_eq, Char.le_def, UInt32.le_iff_toNat_le] at h
  rcases h with (⟨hletter, -⟩ | ⟨-, hdigit⟩) | rfl
  · omega
  · omega
  · omega

lemma Labels.not_isUpper {s : List Char} (h : Labels s) : ∀ c ∈ s, c.isUpper = false := by
  induction h with
  | label h => exact fun c hc => ZosCore.not_isUpper (h.letDigHyp c hc)
  | dot h hrest ih =>
      intro c hc
      rcases List.mem_append.mp hc with hc | hc
      · exact ZosCore.not_isUpper (h.letDigHyp c hc)
      · rcases List.mem_cons.mp hc with rfl | hc
        · rfl
        · exact ih c hc

end ZosCore
