import ZosCore.Chain.Elections

/-!
The authorities that the elections leave behind: a majority of the elected members, by weight,
satisfies them.

* `MajorityOf`: an authority that gives each member its votes, shifted, for a weight, with a
  threshold just above half of them.
* `SoundVotes`: since `HARDFORK_201230` the elected members have fewer and fewer votes, those
  without votes left out; before it the total, on 64 bits, is not zero and leaves room for
  every weight.
* `rewriteActive_iff`: the authority is rewritten so exactly if the votes are sound.
* **`Elections.elected_majorities_iff`**: the three elections.
-/

namespace ZosCore

variable {κ α : Type}

/-! ### Weights -/

/-- The weight of a member with these votes. -/
def weightOf (shift votes : ℕ) : ℕ := max (votes >>> shift) 1

lemma one_le_weightOf (shift votes : ℕ) : 1 ≤ weightOf shift votes := le_max_right _ _

/-- More votes weigh more. -/
lemma weightOf_mono (shift : ℕ) {v w : ℕ} (h : v ≤ w) : weightOf shift v ≤ weightOf shift w := by
  unfold weightOf
  rw [Nat.shiftRight_eq_div_pow, Nat.shiftRight_eq_div_pow]
  exact max_le_max_right 1 (Nat.div_le_div_right h)

lemma weightOf_lt {shift votes : ℕ} (h : votes >>> shift < 2 ^ 16) :
    weightOf shift votes < 2 ^ 16 := max_lt h (by norm_num)

/-- What is dropped for the largest number of votes leaves 16 bits of any other. -/
lemma shiftRight_bitsToDrop_lt {v w : ℕ} (h : w ≤ v) : w >>> bitsToDrop v < 2 ^ 16 := by
  have hv : v < 2 ^ (v.log2 + 1) := Nat.lt_log2_self
  have hpow : 2 ^ (v.log2 + 1) ≤ 2 ^ bitsToDrop v * 2 ^ 16 := by
    rw [← pow_add]
    refine Nat.pow_le_pow_right (by norm_num) ?_
    rw [bitsToDrop]
    omega
  rw [Nat.shiftRight_eq_div_pow]
  refine Nat.div_lt_of_lt_mul ?_
  omega

/-- The members of `l` have their votes, shifted, for weights, and the threshold is just above
half of them. -/
structure MajorityOf (shift : ℕ) (l : List (ℕ × ℕ)) (a : Authority κ α) : Prop where
  weights : a.accountAuths = l.map fun e => (e.1, weightOf shift e.2)
  noKeys : a.keyAuths = []
  noAddresses : a.addressAuths = []
  monotone : ∀ e ∈ l, ∀ e' ∈ l, e.2 ≤ e'.2 → weightOf shift e.2 ≤ weightOf shift e'.2
  range : ∀ e ∈ a.accountAuths, 1 ≤ e.2 ∧ e.2 ≤ 65535
  above : (a.accountAuths.map Prod.snd).sum < 2 * a.weightThreshold
  reachable : a.weightThreshold ≤ (a.accountAuths.map Prod.snd).sum

/-- The weights of a list of members. -/
def weightSum (shift : ℕ) (l : List (ℕ × ℕ)) : ℕ := (l.map fun e => weightOf shift e.2).sum

/-- No more than 65535 for each member. -/
lemma weightSum_le {shift : ℕ} {l : List (ℕ × ℕ)} (h : ∀ e ∈ l, e.2 >>> shift < 2 ^ 16) :
    weightSum shift l ≤ 65535 * l.length := by
  induction l with
  | nil => simp [weightSum]
  | cons e l ih =>
      have he := weightOf_lt (h e List.mem_cons_self)
      have hl := ih fun e he => h e (List.mem_cons_of_mem _ he)
      simp only [weightSum, List.map_cons, List.sum_cons, List.length_cons] at hl ⊢
      omega

/-- At least one for each member. -/
lemma length_le_weightSum (shift : ℕ) (l : List (ℕ × ℕ)) : l.length ≤ weightSum shift l := by
  induction l with
  | nil => simp [weightSum]
  | cons e l ih =>
      have he := one_le_weightOf shift e.2
      simp only [weightSum, List.map_cons, List.sum_cons, List.length_cons] at ih ⊢
      omega

/-- The authority with these weights and a threshold just above half of them. -/
lemma majorityOf_of_sum {shift : ℕ} {l : List (ℕ × ℕ)} {a : Authority κ α} (hl : l ≠ [])
    (hfit : ∀ e ∈ l, e.2 >>> shift < 2 ^ 16)
    (hweights : a.accountAuths = l.map fun e => (e.1, weightOf shift e.2))
    (hkeys : a.keyAuths = []) (haddresses : a.addressAuths = [])
    (hthreshold : a.weightThreshold = weightSum shift l / 2 + 1) : MajorityOf shift l a := by
  have hsum : (a.accountAuths.map Prod.snd).sum = weightSum shift l := by
    rw [hweights, List.map_map]
    rfl
  have hpos : 1 ≤ weightSum shift l :=
    (List.length_pos_iff.mpr hl).trans_le (length_le_weightSum shift l)
  refine ⟨hweights, hkeys, haddresses, fun _ _ _ _ h => weightOf_mono shift h, fun e he => ?_, ?_, ?_⟩
  · rw [hweights] at he
    obtain ⟨m, hm, rfl⟩ := List.mem_map.mp he
    have := weightOf_lt (hfit m hm)
    exact ⟨one_le_weightOf shift m.2, by omega⟩
  · omega
  · omega

/-! ### The counter -/

namespace VoteCounter

/-- The counter after a member with votes. -/
def counted (shift : ℕ) (c : VoteCounter κ α) (e : ℕ × ℕ) : VoteCounter κ α where
  lastVotes := e.2
  totalVotes := c.totalVotes + weightOf shift e.2
  bitshift := some shift
  auth := c.auth.addAuthority e.1 (weightOf shift e.2)

variable {c : VoteCounter κ α} {shift : ℕ} {e : ℕ × ℕ} {l : List (ℕ × ℕ)}

@[simp] lemma add_zero (c : VoteCounter κ α) (who : ℕ) : c.add who 0 = .ok c := rfl

/-- A member that has no more votes than the one before is counted. -/
lemma add_ok (hshift : c.bitshift.getD (bitsToDrop e.2) = shift) (he : e.2 ≠ 0)
    (hlast : e.2 ≤ c.lastVotes) (hfit : e.2 >>> shift < 2 ^ 16)
    (hroom : c.totalVotes + 65535 < 2 ^ 32) : c.add e.1 e.2 = .ok (c.counted shift e) := by
  have hweight : weightOf shift e.2 < 2 ^ 16 := weightOf_lt hfit
  have hmod : (c.totalVotes + weightOf shift e.2) % 2 ^ 64 = c.totalVotes + weightOf shift e.2 :=
    Nat.mod_eq_of_lt (by omega)
  have hmod' : weightOf shift e.2 % 2 ^ 16 = weightOf shift e.2 := Nat.mod_eq_of_lt hweight
  rw [add]
  rw [if_neg he, hshift]
  refine ite_throw_eq_ok.mpr ⟨not_not.mpr hlast, ite_throw_eq_ok.mpr ⟨?_, ite_throw_eq_ok.mpr ⟨?_, ?_⟩⟩⟩
  · show ¬ ¬ weightOf shift e.2 ≤ 2 ^ 16 - 1
    omega
  · show ¬ ¬ (c.totalVotes + weightOf shift e.2) % 2 ^ 64 ≤ 2 ^ 32 - 1
    omega
  show Except.ok (VoteCounter.mk e.2 ((c.totalVotes + weightOf shift e.2) % 2 ^ 64) (some shift)
    (c.auth.addAuthority e.1 (weightOf shift e.2 % 2 ^ 16))) = _
  rw [hmod, hmod']
  rfl

/-- A member that has more votes than the one before is not. -/
lemma add_error (he : e.2 ≠ 0) (hlast : ¬ e.2 ≤ c.lastVotes) :
    c.add e.1 e.2 = .error .assertion := by
  rw [add]
  rw [if_neg he, if_pos hlast]
  rfl

/-- Members without votes are left out. -/
lemma foldlM_filter (l : List (ℕ × ℕ)) (c : VoteCounter κ α) :
    l.foldlM (fun c e => c.add e.1 e.2) c =
      (l.filter (·.2 ≠ 0)).foldlM (fun c e => c.add e.1 e.2) c := by
  induction l generalizing c with
  | nil => rfl
  | cons e l ih =>
      by_cases he : e.2 = 0
      · rw [List.filter_cons_of_neg (by simpa using he), List.foldlM_cons, he]
        exact ih c
      · rw [List.filter_cons_of_pos (by simpa using he), List.foldlM_cons, List.foldlM_cons]
        congr 1
        funext c'
        exact ih c'

/-- Once the shift is fixed, the members are counted exactly if they have fewer and fewer votes. -/
lemma foldlM_counted (hpos : ∀ e ∈ l, e.2 ≠ 0) (hshift : c.bitshift = some shift)
    (hfit : c.lastVotes >>> shift < 2 ^ 16)
    (hroom : c.totalVotes + 65535 * l.length < 2 ^ 32) :
    ((c.lastVotes :: l.map Prod.snd).IsChain (· ≥ ·) →
      l.foldlM (fun c e => c.add e.1 e.2) c = .ok (l.foldl (counted shift) c)) ∧
    (¬ (c.lastVotes :: l.map Prod.snd).IsChain (· ≥ ·) →
      l.foldlM (fun c e => c.add e.1 e.2) c = .error .assertion) := by
  induction l generalizing c with
  | nil => simp [pure, Except.pure]
  | cons e l ih =>
      have he : e.2 ≠ 0 := hpos e List.mem_cons_self
      rw [List.map_cons, List.isChain_cons_cons, List.foldlM_cons, List.foldl_cons]
      rw [List.length_cons] at hroom
      by_cases hlast : e.2 ≤ c.lastVotes
      · have hfit' : e.2 >>> shift < 2 ^ 16 := by
          refine lt_of_le_of_lt ?_ hfit
          rw [Nat.shiftRight_eq_div_pow, Nat.shiftRight_eq_div_pow]
          exact Nat.div_le_div_right hlast
        have hweight : weightOf shift e.2 < 2 ^ 16 := weightOf_lt hfit'
        have hone : c.totalVotes + 65535 < 2 ^ 32 := by linarith [Nat.zero_le l.length]
        have hgetD : c.bitshift.getD (bitsToDrop e.2) = shift := by
          rw [hshift]
          rfl
        have hadd := add_ok hgetD he hlast hfit' hone
        have htotal : (c.counted shift e).totalVotes = c.totalVotes + weightOf shift e.2 := rfl
        have hroom' : (c.counted shift e).totalVotes + 65535 * l.length < 2 ^ 32 := by linarith
        have hrest := ih (c := c.counted shift e) (fun e he => hpos e (List.mem_cons_of_mem _ he))
          rfl hfit' hroom'
        rw [hadd]
        exact ⟨fun h => hrest.1 h.2, fun h => hrest.2 fun hl => h ⟨hlast, hl⟩⟩
      · rw [add_error he hlast]
        exact ⟨fun h => absurd h.1 hlast, fun _ => rfl⟩

variable (shift) in
/-- What the counter has then: the weights in the order of the members, and their sum. -/
lemma foldl_counted (hnodup : (l.map Prod.fst).Nodup)
    (hnew : ∀ e ∈ l, e.1 ∉ c.auth.accountAuths.map Prod.fst) :
    (l.foldl (counted shift) c).totalVotes = c.totalVotes + weightSum shift l ∧
      (l.foldl (counted shift) c).auth = { c.auth with
        accountAuths := c.auth.accountAuths ++ l.map fun e => (e.1, weightOf shift e.2) } := by
  induction l generalizing c with
  | nil => simp [weightSum]
  | cons e l ih =>
      rw [List.map_cons, List.nodup_cons] at hnodup
      have he := hnew e List.mem_cons_self
      have hfilter : c.auth.accountAuths.filter (·.1 ≠ e.1) = c.auth.accountAuths := by
        refine List.filter_eq_self.mpr fun a ha => decide_eq_true ?_
        rintro haccount
        exact he (List.mem_map.mpr ⟨a, ha, haccount⟩)
      have hauths : (c.counted shift e).auth.accountAuths =
          c.auth.accountAuths ++ [(e.1, weightOf shift e.2)] := by
        show c.auth.accountAuths.filter (·.1 ≠ e.1) ++ _ = _
        rw [hfilter]
      obtain ⟨htotal, hauth⟩ := ih (c := c.counted shift e) hnodup.2 (by
        intro m hm hmem
        rw [hauths, List.map_append, List.mem_append] at hmem
        rcases hmem with hmem | hmem
        · exact hnew m (List.mem_cons_of_mem _ hm) hmem
        · have hme : m.1 = e.1 := by simpa using hmem
          exact hnodup.1 (hme ▸ List.mem_map_of_mem hm))
      rw [List.foldl_cons, htotal, hauth, hauths]
      refine ⟨?_, ?_⟩
      · simp only [counted, weightSum, List.map_cons, List.sum_cons]
        omega
      · simp [counted, Authority.addAuthority]

/-- The authority that a counter with votes leaves. -/
lemma finish_ok {a : Authority κ α} (hpos : 0 < c.totalVotes) (hlt : c.totalVotes < 2 ^ 32) :
    c.finish a = .ok { c.auth with weightThreshold := c.totalVotes / 2 + 1 } := by
  rw [finish]
  rw [if_neg hpos.ne']
  refine ite_throw_eq_ok.mpr ⟨not_not.mpr (Nat.le_sub_one_of_lt hlt), ?_⟩
  rw [Nat.mod_eq_of_lt hlt, Nat.shiftRight_eq_div_pow]
  rfl

end VoteCounter

/-! ### The authority -/

/-- The members that are given a weight: all of them before the hardfork, since then those with
votes. -/
def weighed (time : ℕ) (votes : List (ℕ × ℕ)) : List (ℕ × ℕ) :=
  if time < hardfork201230Time then votes else votes.filter (·.2 ≠ 0)

/-- The votes as the code adds them up, on 64 bits. -/
def totalOf (votes : List (ℕ × ℕ)) : ℕ := (votes.map Prod.snd).sum % 2 ^ 64

/-- The shift that all members have in common: of the total before the hardfork, since then of the
first member with votes. -/
def downShift (time : ℕ) (votes : List (ℕ × ℕ)) : ℕ :=
  if time < hardfork201230Time then bitsToDrop (totalOf votes)
  else bitsToDrop (((votes.filter (·.2 ≠ 0)).head?.map Prod.snd).getD 0)

/-- Before the hardfork the total is not zero and each member has a weight of 16 bits; since then
the members with votes have fewer and fewer of them. -/
def SoundVotes (time : ℕ) (votes : List (ℕ × ℕ)) : Prop :=
  if time < hardfork201230Time then
    totalOf votes ≠ 0 ∧ ∀ e ∈ votes, e.2 >>> bitsToDrop (totalOf votes) < 2 ^ 16
  else ((votes.filter (·.2 ≠ 0)).map Prod.snd).IsChain (· ≥ ·)

/-- The authority `a` becomes `a'`: it is left alone if nobody is given a weight, and else a
majority of the members satisfies it. -/
structure Rewritten (time : ℕ) (votes : List (ℕ × ℕ)) (a a' : Authority κ α) : Prop where
  kept : weighed time votes = [] → a' = a
  majority : weighed time votes ≠ [] → MajorityOf (downShift time votes) (weighed time votes) a'

variable {time : ℕ} {votes : List (ℕ × ℕ)} {a : Authority κ α}

/-- Members of different accounts are all emplaced. -/
lemma emplaceAll_eq (h : (votes.map Prod.fst).Nodup) : emplaceAll votes = votes := by
  have hrun : ∀ (l done : List (ℕ × ℕ)), ((done ++ l).map Prod.fst).Nodup →
      l.foldl (fun weights e => if e.1 ∈ weights.map Prod.fst then weights else weights ++ [e])
        done = done ++ l := by
    intro l
    induction l with
    | nil => simp
    | cons e l ih =>
        intro done hdone
        have he : e.1 ∉ done.map Prod.fst := by
          rw [List.map_append, List.map_cons] at hdone
          exact fun he => (List.nodup_append.mp hdone).2.2 e.1 he e.1 List.mem_cons_self rfl
        rw [List.foldl_cons, if_neg he, ih (done ++ [e]) (by simpa using hdone)]
        simp
  exact hrun votes [] (by simpa using h)

/-- A sum of weights fits 32 bits. -/
lemma weightSum_lt {shift : ℕ} {l : List (ℕ × ℕ)} (hlength : l.length ≤ 65535)
    (hfit : ∀ e ∈ l, e.2 >>> shift < 2 ^ 16) : weightSum shift l < 2 ^ 32 := by
  have hsum := weightSum_le hfit
  linarith

/-- Before the hardfork. -/
lemma authorityOfTotal_iff (hnodup : (votes.map Prod.fst).Nodup) (hlength : votes.length ≤ 65535)
    (haddresses : a.addressAuths = []) :
    (∃ a', authorityOfTotal votes a = .ok a' ∧ MajorityOf (bitsToDrop (totalOf votes)) votes a') ↔
      totalOf votes ≠ 0 ∧ ∀ e ∈ votes, e.2 >>> bitsToDrop (totalOf votes) < 2 ^ 16 := by
  rw [authorityOfTotal]
  rw [emplaceAll_eq hnodup]
  constructor
  · rintro ⟨a', hok, hmajority⟩
    obtain ⟨hzero, hok⟩ := ite_throw_eq_ok.mp hok
    refine ⟨hzero, fun e he => ?_⟩
    rw [← Except.ok.inj hok] at hmajority
    have hweight := List.map_inj_left.mp hmajority.weights e he
    have hmod : weightOf (bitsToDrop (totalOf votes)) e.2 % 2 ^ 16 =
        weightOf (bitsToDrop (totalOf votes)) e.2 := congrArg Prod.snd hweight
    calc e.2 >>> bitsToDrop (totalOf votes) ≤ weightOf (bitsToDrop (totalOf votes)) e.2 :=
          le_max_left _ _
      _ < 2 ^ 16 := by
          rw [← hmod]
          exact Nat.mod_lt _ (by norm_num)
  · rintro ⟨hzero, hfit⟩
    refine ⟨_, ite_throw_eq_ok.mpr ⟨hzero, rfl⟩, ?_⟩
    have hne : votes ≠ [] := by
      rintro rfl
      exact hzero rfl
    have hauths : (votes.map fun e =>
        (e.1, max (e.2 >>> bitsToDrop (totalOf votes)) 1 % 2 ^ 16)) =
        votes.map fun e => (e.1, weightOf (bitsToDrop (totalOf votes)) e.2) := by
      refine List.map_congr_left fun e he => ?_
      exact congrArg (Prod.mk e.1) (Nat.mod_eq_of_lt (weightOf_lt (hfit e he)))
    refine majorityOf_of_sum hne hfit hauths rfl haddresses ?_
    show ((votes.map fun e =>
      (e.1, max (e.2 >>> bitsToDrop (totalOf votes)) 1 % 2 ^ 16)).map Prod.snd).sum % 2 ^ 32 / 2 + 1
      = _
    rw [hauths, List.map_map]
    exact congrArg (· / 2 + 1) (Nat.mod_eq_of_lt (weightSum_lt hlength hfit))

/-- The counter, if at least one member has votes: all are counted if they have fewer and fewer,
and an assertion fails if not. -/
lemma foldlM_votes {e : ℕ × ℕ} {rest : List (ℕ × ℕ)} (hfilter : votes.filter (·.2 ≠ 0) = e :: rest)
    (hlength : votes.length ≤ 65535) (htally : ∀ e ∈ votes, e.2 < 2 ^ 64) :
    (((e :: rest).map Prod.snd).IsChain (· ≥ ·) →
      votes.foldlM (fun vc e => vc.add e.1 e.2) ({} : VoteCounter κ α) =
        .ok ((e :: rest).foldl (VoteCounter.counted (bitsToDrop e.2)) {})) ∧
    (¬ ((e :: rest).map Prod.snd).IsChain (· ≥ ·) →
      votes.foldlM (fun vc e => vc.add e.1 e.2) ({} : VoteCounter κ α) = .error .assertion) := by
  have hpos : ∀ m ∈ e :: rest, m.2 ≠ 0 := by
    intro m hm
    rw [← hfilter, List.mem_filter] at hm
    simpa using hm.2
  have hmem : e ∈ votes := List.mem_of_mem_filter (hfilter ▸ List.mem_cons_self)
  have hlen : rest.length + 1 ≤ 65535 := by
    rw [← List.length_cons, ← hfilter]
    exact (List.length_filter_le _ _).trans hlength
  have hlast : e.2 ≤ ({} : VoteCounter κ α).lastVotes := Nat.le_sub_one_of_lt (htally e hmem)
  have hfit : e.2 >>> bitsToDrop e.2 < 2 ^ 16 := shiftRight_bitsToDrop_lt le_rfl
  have hweight : weightOf (bitsToDrop e.2) e.2 < 2 ^ 16 := weightOf_lt hfit
  have hzero : ({} : VoteCounter κ α).totalVotes = 0 := rfl
  have hadd : ({} : VoteCounter κ α).add e.1 e.2 =
      .ok (VoteCounter.counted (bitsToDrop e.2) {} e) :=
    VoteCounter.add_ok rfl (hpos e List.mem_cons_self) hlast hfit (by rw [hzero]; norm_num)
  have htotal : (VoteCounter.counted (bitsToDrop e.2) ({} : VoteCounter κ α) e).totalVotes =
      weightOf (bitsToDrop e.2) e.2 := Nat.zero_add _
  have hrest := VoteCounter.foldlM_counted (l := rest)
    (c := VoteCounter.counted (bitsToDrop e.2) ({} : VoteCounter κ α) e)
    (fun m hm => hpos m (List.mem_cons_of_mem _ hm)) rfl hfit (by rw [htotal]; linarith)
  rw [VoteCounter.foldlM_filter, hfilter, List.foldlM_cons, hadd]
  exact hrest

/-- In a list that goes down nothing is above the first. -/
lemma le_head_of_isChain {e m : ℕ × ℕ} {rest : List (ℕ × ℕ)}
    (h : ((e :: rest).map Prod.snd).IsChain (· ≥ ·)) (hm : m ∈ e :: rest) : m.2 ≤ e.2 := by
  have hpair := List.pairwise_cons.mp (List.isChain_iff_pairwise.mp h)
  rcases List.mem_cons.mp hm with rfl | hm
  · exact le_rfl
  · exact hpair.1 m.2 (List.mem_map_of_mem hm)

/-- Since the hardfork. -/
lemma rewriteActive_since (htime : ¬ time < hardfork201230Time)
    (hnodup : (votes.map Prod.fst).Nodup) (hlength : votes.length ≤ 65535)
    (htally : ∀ e ∈ votes, e.2 < 2 ^ 64) :
    (∃ a', rewriteActive time votes a = .ok a' ∧ Rewritten time votes a a') ↔
      ((votes.filter (·.2 ≠ 0)).map Prod.snd).IsChain (· ≥ ·) := by
  have hweighed : weighed time votes = votes.filter (·.2 ≠ 0) := if_neg htime
  have hshift : downShift time votes =
      bitsToDrop (((votes.filter (·.2 ≠ 0)).head?.map Prod.snd).getD 0) := if_neg htime
  rw [rewriteActive]
  rw [if_neg htime]
  cases hfilter : votes.filter (·.2 ≠ 0) with
  | nil =>
      -- nobody has votes, and the authority is left alone
      rw [VoteCounter.foldlM_filter, hfilter]
      refine ⟨fun _ => by simp, fun _ => ⟨a, rfl, fun _ => rfl, fun hne => ?_⟩⟩
      rw [hweighed, hfilter] at hne
      exact absurd rfl hne
  | cons e rest =>
      obtain ⟨hok, herror⟩ := foldlM_votes (κ := κ) (α := α) hfilter hlength htally
      constructor
      · rintro ⟨a', ha', -⟩
        by_contra hchain
        rw [herror hchain] at ha'
        cases ha'
      · intro hchain
        rw [hok hchain]
        have hsub : (e :: rest).Sublist votes := hfilter ▸ List.filter_sublist
        have hlen : (e :: rest).length ≤ 65535 := hsub.length_le.trans hlength
        have hfit : ∀ m ∈ e :: rest, m.2 >>> bitsToDrop e.2 < 2 ^ 16 :=
          fun m hm => shiftRight_bitsToDrop_lt (le_head_of_isChain hchain hm)
        obtain ⟨htotal, hauth⟩ := VoteCounter.foldl_counted (bitsToDrop e.2) (l := e :: rest)
          (c := ({} : VoteCounter κ α)) (hnodup.sublist (hsub.map _)) (by simp)
        have hsum := weightSum_lt hlen hfit
        have hpos : 0 < weightSum (bitsToDrop e.2) (e :: rest) :=
          (List.length_pos_iff.mpr (List.cons_ne_nil e rest)).trans_le (length_le_weightSum _ _)
        have hzero : ({} : VoteCounter κ α).totalVotes = 0 := rfl
        rw [hzero, Nat.zero_add] at htotal
        refine ⟨_, VoteCounter.finish_ok (by rw [htotal]; exact hpos) (by rw [htotal]; exact hsum),
          fun hnil => ?_, fun _ => ?_⟩
        · rw [hweighed, hfilter] at hnil
          cases hnil
        · rw [hweighed, hshift, hfilter, hauth, htotal]
          exact majorityOf_of_sum (List.cons_ne_nil _ _) hfit rfl rfl rfl rfl

/-- **The authority.** It is rewritten so that a majority of the members satisfies it, or left
alone if nobody has votes, exactly if the votes are sound. -/
theorem rewriteActive_iff (hnodup : (votes.map Prod.fst).Nodup) (hlength : votes.length ≤ 65535)
    (htally : ∀ e ∈ votes, e.2 < 2 ^ 64) (haddresses : a.addressAuths = []) :
    (∃ a', rewriteActive time votes a = .ok a' ∧ Rewritten time votes a a') ↔
      SoundVotes time votes := by
  by_cases htime : time < hardfork201230Time
  · have hweighed : weighed time votes = votes := if_pos htime
    have hshift : downShift time votes = bitsToDrop (totalOf votes) := if_pos htime
    rw [SoundVotes, rewriteActive]
    rw [if_pos htime, if_pos htime, ← authorityOfTotal_iff hnodup hlength haddresses]
    refine exists_congr fun a' => and_congr_right fun hok => ?_
    have hne : votes ≠ [] := by
      rintro rfl
      cases hok
    constructor
    · intro h
      have hmajority := h.majority (by rw [hweighed]; exact hne)
      rwa [hweighed, hshift] at hmajority
    · refine fun h => ⟨fun hnil => absurd (hweighed ▸ hnil) hne, fun _ => ?_⟩
      rwa [hweighed, hshift]
  · rw [rewriteActive_since htime hnodup hlength htally, SoundVotes, if_neg htime]

/-! ### The members elected -/

namespace Electorate

variable {tally : ℕ → ℕ} {E : Electorate κ α}

/-- What is known of the members of one kind: they have accounts of their own, the numbers of
places come from parameters of 16 bits, and an active authority has no addresses
(`account_update_operation::validate`). -/
structure Valid (E : Electorate κ α) : Prop where
  accounts : (E.members.map Votable.account).Nodup
  votedCount : E.votedCount ≤ 32767
  minCount : E.minCount ≤ 65535
  addresses : E.active.addressAuths = []

lemma Valid.length_votes_le (h : E.Valid) : (E.votes tally).length ≤ 65535 := by
  have hvoted := h.votedCount
  have hmin := h.minCount
  rw [votes, List.length_map, elected, List.length_take]
  omega

/-- The elected members have accounts of their own. -/
lemma Valid.nodup_votes (h : E.Valid) : ((E.votes tally).map Prod.fst).Nodup := by
  have hperm := List.perm_insertionSort (fun a b => ¬ precedes tally b a) E.members
  rw [votes, List.map_map]
  refine List.Nodup.sublist ((List.take_sublist _ _).map _) ?_
  exact (hperm.map Votable.account).nodup_iff.mpr h.accounts

lemma tally_votes_lt (htally : ∀ v, tally v < 2 ^ 64) : ∀ e ∈ E.votes tally, e.2 < 2 ^ 64 := by
  intro e he
  obtain ⟨m, -, rfl⟩ := List.mem_map.mp he
  exact htally m.voteId

/-- An authority of elected members. -/
lemma Valid.rewriteActive_iff (h : E.Valid) (htally : ∀ v, tally v < 2 ^ 64) {time : ℕ} :
    (∃ a', rewriteActive time (E.votes tally) E.active = .ok a' ∧
      Rewritten time (E.votes tally) E.active a') ↔ SoundVotes time (E.votes tally) :=
  ZosCore.rewriteActive_iff h.nodup_votes h.length_votes_le (tally_votes_lt htally) h.addresses

/-- Where nobody is elected the authority is left alone. -/
lemma rewritten_of_nobody {time : ℕ} {a : Authority κ α} (h : E.elected tally = []) :
    Rewritten time (E.votes tally) a a := by
  have hweighed : weighed time (E.votes tally) = [] := by
    rw [votes, h, weighed]
    split_ifs <;> rfl
  exact ⟨fun _ => rfl, fun hne => absurd hweighed hne⟩

/-- The order of the members is a total one. -/
lemma not_precedes_iff (tally : ℕ → ℕ) (a b : Votable) : precedes tally b a = false ↔
    sortVotes tally b < sortVotes tally a ∨
      sortVotes tally a = sortVotes tally b ∧ a.voteId ≤ b.voteId := by
  rw [precedes]
  split_ifs with h
  · rw [decide_eq_false_iff_not]
    omega
  · rw [decide_eq_false_iff_not]
    omega

/-- The elected members are in order. -/
lemma pairwise_elected (tally : ℕ → ℕ) (E : Electorate κ α) :
    (E.elected tally).Pairwise fun a b => sortVotes tally b ≤ sortVotes tally a := by
  have htotal : Std.Total fun a b => ¬ precedes tally b a = true := by
    refine ⟨fun a b => ?_⟩
    simp only [Bool.not_eq_true, not_precedes_iff]
    omega
  have htrans : IsTrans Votable fun a b => ¬ precedes tally b a = true := by
    refine ⟨fun a b c => ?_⟩
    simp only [Bool.not_eq_true, not_precedes_iff]
    omega
  have hsorted := List.pairwise_insertionSort (fun a b => ¬ precedes tally b a = true) E.members
  refine (hsorted.sublist (List.take_sublist _ _)).imp fun {a b} hab => ?_
  have hab := (not_precedes_iff tally a b).mp (by simpa using hab)
  omega

/-- Since the hardfork the votes are sound if no disabled member with votes is elected, and no
number of votes is negative as a `share_type`. -/
theorem soundVotes_of_isEnable {time : ℕ} (htime : hardfork201230Time ≤ time)
    (henable : ∀ m ∈ E.elected tally, tally m.voteId ≠ 0 → m.isEnable = true)
    (hshare : ∀ v, tally v < 2 ^ 63) : SoundVotes time (E.votes tally) := by
  have hvotes : ∀ m ∈ E.elected tally, tally m.voteId ≠ 0 →
      sortVotes tally m = tally m.voteId := by
    intro m hm hne
    have hlt := hshare m.voteId
    rw [sortVotes, if_pos (henable m hm hne), int64]
    exact Int.bmod_eq_of_le (by omega) (by omega)
  rw [SoundVotes, if_neg (not_lt.mpr htime), List.isChain_iff_pairwise, List.pairwise_map, votes,
    List.filter_map, List.pairwise_map, List.pairwise_filter]
  refine (pairwise_elected tally E).imp_of_mem fun {a b} ha hb hab hane hbne => ?_
  rw [hvotes a ha (by simpa using hane), hvotes b hb (by simpa using hbne)] at hab
  exact Int.ofNat_le.mp hab

end Electorate

/-! ### The elections -/

namespace Elections

variable {e : Elections κ α}

/-- `database_check_witness` leaves the accounts. -/
lemma valid_checkedWitnesses (h : e.witnesses.Valid) : e.checkedWitnesses.Valid where
  accounts := by
    have haccount : Votable.account ∘ checkWitness (e.maintenanceInterval / e.blockInterval) =
        Votable.account := by
      funext m
      simp only [Function.comp_apply, checkWitness]
      split_ifs <;> rfl
    rw [checkedWitnesses, List.map_map, haccount]
    exact h.accounts
  votedCount := h.votedCount
  minCount := h.minCount
  addresses := h.addresses

/-- **The elections.** Each of the three authorities is rewritten so that a majority of the elected
members satisfies it, or left alone if there are none with votes, exactly if the votes of the
elected members are sound; for the committee and the budget also if nobody is elected. -/
theorem elected_majorities_iff (hW : e.witnesses.Valid) (hC : e.committee.Valid)
    (hB : e.budget.Valid) (htally : ∀ v, e.tally v < 2 ^ 64) :
    ((∃ e', e.updateActiveWitnesses = .ok e' ∧ Rewritten e.time (e.checkedWitnesses.votes e.tally)
        e.witnesses.active e'.witnesses.active) ↔
      SoundVotes e.time (e.checkedWitnesses.votes e.tally)) ∧
    ((∃ e', e.updateActiveCommitteeMembers = .ok e' ∧ Rewritten e.time (e.committee.votes e.tally)
        e.committee.active e'.committee.active) ↔
      (e.committee.elected e.tally = [] ∨ SoundVotes e.time (e.committee.votes e.tally))) ∧
    ((∃ e', e.updateActiveBudgetMembers = .ok e' ∧ Rewritten e.time (e.budget.votes e.tally)
        e.budget.active e'.budget.active) ↔
      (e.budget.elected e.tally = [] ∨ SoundVotes e.time (e.budget.votes e.tally))) := by
  refine ⟨?_, ?_, ?_⟩
  · exact exists_bind_eq_ok.trans ((valid_checkedWitnesses hW).rewriteActive_iff htally)
  · exact Iff.trans (exists_ite_pure_eq_ok fun hnobody => Electorate.rewritten_of_nobody hnobody)
      (or_congr_right (hC.rewriteActive_iff htally))
  · exact Iff.trans (exists_ite_pure_eq_ok fun hnobody => Electorate.rewritten_of_nobody hnobody)
      (or_congr_right (hB.rewriteActive_iff htally))

end Elections

/-! ### Two members -/

/-- Two members for two places, the second one enabled or not. -/
def twoMembers (second : IdentityType) : Electorate ℕ ℕ where
  members := [{ id := 20, account := 30, voteId := 1 },
    { id := 21, account := 31, voteId := 2, enable := second }]
  votedCount := 0
  minCount := 2
  active := { weightThreshold := 1 }

/-- The elections of two witnesses, two committee members and two budget members. -/
def twoMembersElections (time : ℕ) (second : IdentityType) (votes : List ℕ) : Elections ℕ ℕ where
  time := time
  tally voteId := votes.getD voteId 0
  maintenanceInterval := 86400
  blockInterval := 5
  witnesses := twoMembers second
  committee := twoMembers second
  budget := twoMembers second
  relaxedCommittee := { weightThreshold := 1 }

lemma valid_twoMembers (second : IdentityType) : (twoMembers second).Valid where
  accounts := by simp [twoMembers]
  votedCount := by simp [twoMembers]
  minCount := by simp [twoMembers]
  addresses := rfl

/-- Two enabled members have 10 and 4 votes. -/
theorem elected_majorities_twoMembers :
    ∃ e', (twoMembersElections hardfork201230Time .identityEnable [0, 10, 4]).updateActiveWitnesses =
        .ok e' ∧
      Rewritten hardfork201230Time
        ((twoMembersElections hardfork201230Time .identityEnable [0, 10, 4]).checkedWitnesses.votes
          fun voteId => [0, 10, 4].getD voteId 0)
        { weightThreshold := 1 } e'.witnesses.active := by
  have htally : ∀ voteId, [0, 10, 4].getD voteId 0 < 2 ^ 63 := by
    intro voteId
    rcases voteId with _ | _ | _ | voteId <;> simp
  refine (Elections.elected_majorities_iff (valid_twoMembers _) (valid_twoMembers _)
    (valid_twoMembers _) fun v => (htally v).trans (by norm_num)).1.mpr ?_
  exact Electorate.soundVotes_of_isEnable le_rfl (by decide) htally

/-- A disabled member with more votes than the enabled one before it, since the hardfork, and two
members without votes, before it. -/
theorem twoMembers_unsound :
    (twoMembersElections hardfork201230Time .identityDisable [0, 1, 5]).updateActiveWitnesses =
      .error .assertion ∧
    (twoMembersElections hardfork201230Time .identityDisable [0, 1, 5]).updateActiveCommitteeMembers =
      .error .assertion ∧
    (twoMembersElections hardfork201230Time .identityDisable [0, 1, 5]).updateActiveBudgetMembers =
      .error .assertion ∧
    (twoMembersElections 0 .identityEnable []).updateActiveWitnesses = .error .undefined :=
  ⟨rfl, rfl, rfl, rfl⟩

end ZosCore
