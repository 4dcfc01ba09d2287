import ZosCore.Chain.Majorities
import ZosCore.Lib.SortedLists

/-!
`db_maint.cpp`: the authorities of accounts that are controlled by the top holders of an asset.

`update_top_n_authorities` goes through the balances of the asset, the largest first, and leaves out the
account itself; balances of zero take a place, and are not counted.

* `AccountBalances`: `account_balance_index`.
* `topHoldersAuthority`: the authority of the first few holders.
* `HeldByTop`: an authority that the largest holders satisfy, by majority of their balances.
* **`topHoldersAuthority_heldByTop`**: the authority is held so if anybody else holds the asset, and
  is left alone otherwise.
-/

namespace ZosCore

/-! ### Balances -/

/-- `account_balance_object`, of an amount that is not negative. -/
structure AccountBalance where
  owner : ℕ
  assetType : ℕ
  balance : ℕ
  balance_lt : balance < 2 ^ 63
  deriving DecidableEq

/-- `account_balance_index`: there is one object at most for an account and an asset. -/
structure AccountBalances where
  objects : List AccountBalance
  unique : (objects.map fun b => (b.owner, b.assetType)).Nodup

namespace AccountBalances

/-- The order of `by_asset_balance` among the balances of one asset. -/
def Precedes (a b : AccountBalance) : Prop :=
  b.balance < a.balance ∨ b.balance = a.balance ∧ a.owner ≤ b.owner

instance : DecidableRel Precedes := fun _ _ => inferInstanceAs (Decidable (_ ∨ _))

/-- The range of an asset in `by_asset_balance`. -/
def byAssetBalance (bs : AccountBalances) (asset : ℕ) : List AccountBalance :=
  (bs.objects.filter (·.assetType = asset)).insertionSort Precedes

end AccountBalances

variable {κ α : Type}

/-! ### The holders -/

/-- The loop over the balances, which ends after `num_needed` of them. -/
def findAccounts (acct : ℕ) : ℕ → List AccountBalance → VoteCounter κ α →
    Except VoteError (VoteCounter κ α)
  | _, [], vc => return vc
  | numNeeded, bal :: bals, vc =>
      if bal.owner = acct then findAccounts acct numNeeded bals vc
      else do
        let vc ← vc.add bal.owner bal.balance
        let numNeeded := numNeeded - 1
        if numNeeded = 0 then return vc
        findAccounts acct numNeeded bals vc

/-- The part of `update_top_n_authorities` for one authority: whether it is controlled by holders now,
and what it is. -/
def topHoldersAuthority (bs : AccountBalances) (acct asset numTopHolders : ℕ) (a : Authority κ α) :
    Except VoteError (Bool × Authority κ α) :=
  if numTopHolders = 0 then return (false, a)
  else do
    let vc ← findAccounts acct numTopHolders (bs.byAssetBalance asset) ({} : VoteCounter κ α)
    let a ← vc.finish a
    return (vc.totalVotes ≠ 0, a)

/-- The holders of an asset other than the account. -/
def otherHolders (bs : AccountBalances) (acct asset : ℕ) : List AccountBalance :=
  bs.objects.filter fun b => b.assetType = asset ∧ b.owner ≠ acct ∧ 0 < b.balance

/-- The authority is that of the `n` largest of the holders: they weigh between 1 and 65535, more with
a larger balance, and what is required is more than half of all. -/
structure HeldByTop (holders : List AccountBalance) (n : ℕ) (chosen : List AccountBalance)
    (a : Authority κ α) : Prop where
  subset : chosen ⊆ holders
  nodup : (chosen.map (·.owner)).Nodup
  length : chosen.length = min n holders.length
  largest : ∀ b ∈ chosen, ∀ c ∈ holders, c ∉ chosen → c.balance ≤ b.balance
  accounts : a.accountAuths.map Prod.fst = chosen.map (·.owner)
  noKeys : a.keyAuths = []
  noAddresses : a.addressAuths = []
  range : ∀ e ∈ a.accountAuths, 1 ≤ e.2 ∧ e.2 ≤ 65535
  monotone : ∀ b ∈ chosen, ∀ c ∈ chosen, b.balance ≤ c.balance → ∀ v w,
    (b.owner, v) ∈ a.accountAuths → (c.owner, w) ∈ a.accountAuths → v ≤ w
  above : (a.accountAuths.map Prod.snd).sum < 2 * a.weightThreshold

/-! ### The loop -/

/-- A balance as a vote. -/
def AccountBalance.vote (b : AccountBalance) : ℕ × ℕ := (b.owner, b.balance)

/-- **The loop** counts the first balances of other accounts. -/
lemma findAccounts_eq (acct n : ℕ) (bals : List AccountBalance) (vc : VoteCounter κ α) :
    findAccounts acct (n + 1) bals vc =
      (((bals.filter (·.owner ≠ acct)).take (n + 1)).map AccountBalance.vote).foldlM
        (fun vc e => vc.add e.1 e.2) vc := by
  induction bals generalizing n vc with
  | nil => rfl
  | cons bal bals ih =>
      rw [findAccounts]
      by_cases hacct : bal.owner = acct
      · rw [if_pos hacct, List.filter_cons_of_neg (by simpa using hacct), ih]
      · rw [if_neg hacct, List.filter_cons_of_pos (by simpa using hacct), List.take_succ_cons,
          List.map_cons, List.foldlM_cons]
        refine bind_congr fun vc' => ?_
        cases n with
        | zero => simp
        | succ n => exact ih n vc'

section Chosen

variable (bs : AccountBalances) (acct asset : ℕ)

/-- The balances of the other accounts in their order. -/
def ranked : List AccountBalance := (bs.byAssetBalance asset).filter (·.owner ≠ acct)

lemma ranked_sorted : (ranked bs acct asset).Pairwise fun a b => b.balance ≤ a.balance := by
  have htotal : Std.Total AccountBalances.Precedes := ⟨fun a b => by
    rw [AccountBalances.Precedes, AccountBalances.Precedes]
    omega⟩
  have htrans : IsTrans AccountBalance AccountBalances.Precedes := ⟨fun a b c => by
    rw [AccountBalances.Precedes, AccountBalances.Precedes, AccountBalances.Precedes]
    omega⟩
  have hsorted := List.pairwise_insertionSort AccountBalances.Precedes
    (bs.objects.filter (·.assetType = asset))
  refine (hsorted.sublist List.filter_sublist).imp fun {a b} h => ?_
  rcases h with h | h
  · exact h.le
  · exact h.1.le

lemma positive_perm : ((ranked bs acct asset).filter (0 < ·.balance)).Perm
    (otherHolders bs acct asset) := by
  have hperm := List.perm_insertionSort AccountBalances.Precedes
    (bs.objects.filter (·.assetType = asset))
  refine ((hperm.filter _).filter _).trans (List.Perm.of_eq ?_)
  rw [List.filter_filter, List.filter_filter, otherHolders]
  refine List.filter_congr fun b _ => ?_
  simp only [Bool.decide_and, ne_eq, decide_not]
  cases decide (b.assetType = asset) <;> cases decide (b.owner = acct) <;>
    cases decide (0 < b.balance) <;> rfl

/-- The largest holders. -/
def chosenHolders (n : ℕ) : List AccountBalance :=
  ((ranked bs acct asset).filter (0 < ·.balance)).take n

lemma owners_nodup : ((ranked bs acct asset).map (·.owner)).Nodup := by
  have hasset : ((bs.objects.filter (·.assetType = asset)).map (·.owner)).Nodup := by
    have hunique := bs.unique.sublist ((List.filter_sublist (p := (·.assetType = asset))).map _)
    rw [List.Nodup, List.pairwise_map] at hunique ⊢
    refine hunique.imp_of_mem fun {a b} ha hb h howner => h ?_
    have ha' : a.assetType = asset := by simpa using (List.mem_filter.mp ha).2
    have hb' : b.assetType = asset := by simpa using (List.mem_filter.mp hb).2
    rw [howner, ha', hb']
  have hperm := (List.perm_insertionSort AccountBalances.Precedes
    (bs.objects.filter (·.assetType = asset))).map (·.owner)
  exact (hperm.nodup_iff.mpr hasset).sublist (List.filter_sublist.map _)

/-- The votes that count are those of the largest holders. -/
lemma counted_votes (n : ℕ) :
    (((ranked bs acct asset).take n).map AccountBalance.vote).filter (·.2 ≠ 0) =
      (chosenHolders bs acct asset n).map AccountBalance.vote := by
  have hsorted : (ranked bs acct asset).Pairwise fun a b =>
      decide (0 < b.balance) = true → decide (0 < a.balance) = true := by
    refine (ranked_sorted bs acct asset).imp fun {a b} h => ?_
    simp only [decide_eq_true_eq]
    omega
  rw [List.filter_map, chosenHolders, ← SortedLists.filter_take hsorted]
  refine congrArg (List.map _) (List.filter_congr fun b _ => ?_)
  rw [Function.comp_apply, AccountBalance.vote, decide_eq_decide]
  exact Nat.pos_iff_ne_zero.symm

end Chosen

/-! ### The authority -/

variable {bs : AccountBalances} {acct asset n : ℕ} {a : Authority κ α}

lemma mem_otherHolders_of_chosen {b : AccountBalance} (hb : b ∈ chosenHolders bs acct asset n) :
    b ∈ otherHolders bs acct asset :=
  (positive_perm bs acct asset).subset (List.mem_of_mem_take hb)

lemma chosenHolders_eq_nil_iff (hpos : 0 < n) :
    chosenHolders bs acct asset n = [] ↔ otherHolders bs acct asset = [] := by
  have hperm := positive_perm bs acct asset
  rw [chosenHolders, List.take_eq_nil_iff, or_iff_right hpos.ne']
  exact ⟨fun h => (h ▸ hperm).nil_eq.symm, fun h => (h ▸ hperm).eq_nil⟩

/-- A majority of the largest holders. -/
lemma heldByTop_of_majorityOf {shift : ℕ}
    (h : MajorityOf shift ((chosenHolders bs acct asset n).map AccountBalance.vote) a) :
    HeldByTop (otherHolders bs acct asset) n (chosenHolders bs acct asset n) a := by
  have hperm := positive_perm bs acct asset
  have hnodup : ((chosenHolders bs acct asset n).map (·.owner)).Nodup :=
    (owners_nodup bs acct asset).sublist
      (((List.take_sublist _ _).trans List.filter_sublist).map _)
  have hweights : a.accountAuths =
      (chosenHolders bs acct asset n).map fun b => (b.owner, weightOf shift b.balance) := by
    rw [h.weights, List.map_map]
    rfl
  have hweight : ∀ b ∈ chosenHolders bs acct asset n, ∀ v, (b.owner, v) ∈ a.accountAuths →
      v = weightOf shift b.balance := by
    intro b hb v hv
    rw [hweights] at hv
    obtain ⟨c, hc, heq⟩ := List.mem_map.mp hv
    obtain ⟨howner, rfl⟩ := Prod.mk.inj heq
    rw [List.inj_on_of_nodup_map hnodup hc hb howner]
  refine ⟨fun b hb => mem_otherHolders_of_chosen hb, hnodup, ?_, ?_, ?_, h.noKeys, h.noAddresses,
    h.range, ?_, h.above⟩
  · rw [chosenHolders, List.length_take, hperm.length_eq]
  · intro b hb c hc hc'
    have hsorted := (ranked_sorted bs acct asset).sublist
      (List.filter_sublist (p := (0 < ·.balance)))
    exact SortedLists.rel_of_mem_take hsorted hb (hperm.symm.subset hc) hc'
  · rw [hweights, List.map_map]
    rfl
  · intro b hb c hc hle v w hv hw
    rw [hweight b hb v hv, hweight c hc w hw]
    exact weightOf_mono shift hle

/-- **The authority of the top holders.** -/
theorem topHoldersAuthority_heldByTop (bs : AccountBalances) (acct asset : ℕ) (hpos : 0 < n)
    (hbyte : n < 256) (a : Authority κ α) :
    ∃ controlled a', topHoldersAuthority bs acct asset n a = .ok (controlled, a') ∧
      (otherHolders bs acct asset = [] → controlled = false ∧ a' = a) ∧
      (otherHolders bs acct asset ≠ [] → controlled = true ∧
        HeldByTop (otherHolders bs acct asset) n (chosenHolders bs acct asset n) a') := by
  obtain ⟨k, rfl⟩ : ∃ k, n = k + 1 := ⟨n - 1, by omega⟩
  let votes := ((ranked bs acct asset).take (k + 1)).map AccountBalance.vote
  have hcounted : votes.filter (·.2 ≠ 0) =
      (chosenHolders bs acct asset (k + 1)).map AccountBalance.vote :=
    counted_votes bs acct asset (k + 1)
  have hrun : topHoldersAuthority bs acct asset (k + 1) a = (do
      let vc ← votes.foldlM (fun vc e => vc.add e.1 e.2) ({} : VoteCounter κ α)
      let a ← vc.finish a
      return (vc.totalVotes ≠ 0, a)) := by
    rw [topHoldersAuthority, if_neg hpos.ne', findAccounts_eq]
    rfl
  have hlength : votes.length ≤ 65535 := by
    rw [List.length_map, List.length_take]
    omega
  have htally : ∀ e ∈ votes, e.2 < 2 ^ 64 := by
    intro e he
    obtain ⟨b, -, rfl⟩ := List.mem_map.mp he
    exact b.balance_lt.trans (by norm_num)
  rw [hrun]
  cases hchosen : chosenHolders bs acct asset (k + 1) with
  | nil =>
      have hnobody := (chosenHolders_eq_nil_iff hpos).mp hchosen
      rw [hchosen, List.map_nil] at hcounted
      rw [VoteCounter.foldlM_filter, hcounted]
      exact ⟨false, a, rfl, fun _ => ⟨rfl, rfl⟩, fun hne => absurd hnobody hne⟩
  | cons b rest =>
      have hsomebody : otherHolders bs acct asset ≠ [] := by
        rw [ne_eq, ← chosenHolders_eq_nil_iff hpos, hchosen]
        exact List.cons_ne_nil b rest
      have hnodup : (votes.map Prod.fst).Nodup := by
        rw [List.map_map]
        exact (owners_nodup bs acct asset).sublist ((List.take_sublist _ _).map _)
      have hchain : ((votes.filter (·.2 ≠ 0)).map Prod.snd).IsChain (· ≥ ·) := by
        rw [hcounted, List.map_map, List.isChain_iff_pairwise, List.pairwise_map]
        exact (ranked_sorted bs acct asset).sublist
          ((List.take_sublist _ _).trans List.filter_sublist)
      obtain ⟨a', hok, hrewritten⟩ := (rewriteActive_since (a := a) (lt_irrefl hardfork201230Time)
        hnodup hlength htally).mpr hchain
      rw [rewriteActive, if_neg (lt_irrefl _), except_bind_eq_ok] at hok
      obtain ⟨vc, hvc, hfinish⟩ := hok
      rw [hchosen] at hcounted
      rw [hcounted] at hchain
      -- the first of them has a weight already
      have htotal : vc.totalVotes ≠ 0 := by
        have hfold := (foldlM_votes (κ := κ) (α := α) hcounted hlength htally).1 hchain
        rw [hvc] at hfold
        have hnodup' : ((b.vote :: rest.map AccountBalance.vote).map Prod.fst).Nodup := by
          rw [← List.map_cons, ← hcounted]
          exact hnodup.sublist (List.filter_sublist.map _)
        have hsum := (VoteCounter.foldl_counted (bitsToDrop b.vote.2)
          (l := b.vote :: rest.map AccountBalance.vote) (c := ({} : VoteCounter κ α))
          hnodup' (by simp)).1
        rw [Except.ok.inj hfold]
        have hone := length_le_weightSum (bitsToDrop b.vote.2) (b.vote :: rest.map AccountBalance.vote)
        rw [List.length_cons] at hone
        have hzero : ({} : VoteCounter κ α).totalVotes = 0 := rfl
        omega
      refine ⟨true, a', ?_, fun hnobody => absurd hnobody hsomebody, fun _ => ⟨rfl, ?_⟩⟩
      · rw [hvc]
        show (do let a ← vc.finish a; return (decide (vc.totalVotes ≠ 0), a)) = _
        rw [hfinish, decide_eq_true htotal]
        rfl
      · have hweighed : weighed hardfork201230Time votes = votes.filter (·.2 ≠ 0) :=
          if_neg (lt_irrefl _)
        have hmajority := hrewritten.majority (by rw [hweighed, hcounted]; exact List.cons_ne_nil _ _)
        rw [hweighed, hcounted] at hmajority
        rw [← hchosen]
        exact heldByTop_of_majorityOf (hchosen ▸ hmajority)

end ZosCore
