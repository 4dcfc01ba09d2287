import ZosCore.Chain.ForkDatabase

/-!
`fork_database::fetch_branch_from`: the two branches that lead to a common ancestor.

The three loops follow the weak `prev` pointers. What carries them is that a pointer leads to the
block before (`Forest`) and so one step down, and that the two blocks are related.

* `Reaches`: the items that are found by following `prev`.
* `Related`: two items have a common ancestor, and what is between is held.
* `descend_eq_ok`, `meet_eq_ok`: what the loops find.
* **`fetchBranchFrom_finds`**: the branches of two related blocks.
-/

namespace ZosCore

namespace ForkDatabase

variable {β : Type} {f : ForkDatabase β} {a b c x y low : ForkItem β}

/-! ### The items before an item -/

/-- `prev` of `a` leads to `b`. -/
def Links (f : ForkDatabase β) (a b : ForkItem β) : Prop := f.lock a = some b

/-- `b` is `a`, or is found by following `prev` from `a`. -/
def Reaches (f : ForkDatabase β) : ForkItem β → ForkItem β → Prop :=
  Relation.ReflTransGen f.Links

/-- The items form a forest: `prev` of an item leads to the block before it. The number of a block
is one more than that of the block before it. -/
def Forest (f : ForkDatabase β) : Prop :=
  ∀ it ∈ f.alive, ∀ prev ∈ f.lock it, it.data.previous = prev.id

/-- The block of `b` is that of `a` or an ancestor of it, and what is between is held. -/
def Ancestor (f : ForkDatabase β) (a b : ForkItem β) : Prop := ∃ x, f.Reaches a x ∧ x.data = b.data

/-- Two items have a common ancestor, and what is between is held: it is the block before the last
items, or is held itself. -/
def Related (f : ForkDatabase β) (a b : ForkItem β) : Prop :=
  ∃ x y, f.Reaches a x ∧ f.Reaches b y ∧ x.data.previous = y.data.previous

lemma num_pos (it : ForkItem β) : 0 < it.num := Nat.succ_pos _

lemma num_eq_of_previous (h : x.data.previous = y.data.previous) : x.num = y.num :=
  congrArg (·.num + 1) h

lemma links_unique : Relator.RightUnique f.Links := fun _ _ _ h h' =>
  Option.some_injective _ (h.symm.trans h')

namespace Forest

variable (hf : f.Forest)

include hf

/-- One step of a loop. -/
lemma step (ha : a ∈ f.alive) (h : f.Links a b) :
    b ∈ f.alive ∧ a.data.previous = b.id ∧ a.num = b.num + 1 := by
  have hprev : a.data.previous = b.id := hf a ha b h
  exact ⟨lock_mem_alive h, hprev, congrArg (·.num + 1) hprev⟩

lemma reaches (ha : a ∈ f.alive) (h : f.Reaches a b) : b ∈ f.alive ∧ b.num ≤ a.num := by
  induction h with
  | refl => exact ⟨ha, le_rfl⟩
  | tail _ hlink ih =>
      obtain ⟨hc, -, hnum⟩ := hf.step ih.1 hlink
      exact ⟨hc, by omega⟩

/-- An item that is reached and is not below is the item itself. -/
lemma eq_of_num (ha : a ∈ f.alive) (h : f.Reaches a b) (hnum : a.num ≤ b.num) : a = b := by
  rcases h.cases_head with rfl | ⟨c, hlink, hcb⟩
  · rfl
  · obtain ⟨hc, -, hac⟩ := hf.step ha hlink
    have hbc := (hf.reaches hc hcb).2
    omega

/-- On one branch there is one item of a height. -/
lemma eq_of_reaches (ha : a ∈ f.alive) (hx : f.Reaches a x) (hy : f.Reaches a y)
    (hnum : x.num = y.num) : x = y := by
  rcases hx.total_of_right_unique links_unique hy with h | h
  · exact hf.eq_of_num (hf.reaches ha hx).1 h hnum.le
  · exact (hf.eq_of_num (hf.reaches ha hy).1 h hnum.ge).symm

end Forest

/-! ### Linked lists of items -/

/-- The items of a linked list are reached from the first one. -/
lemma reaches_of_mem {l : List (ForkItem β)} (hl : List.IsChain f.Links (a :: l)) {it : ForkItem β}
    (hit : it ∈ a :: l) : f.Reaches a it := by
  induction l generalizing a with
  | nil =>
      rw [List.mem_singleton.mp hit]
      exact .refl
  | cons c l ih =>
      obtain ⟨hlink, hl⟩ := List.isChain_cons_cons.mp hl
      rcases List.mem_cons.mp hit with rfl | hit
      · exact .refl
      · exact .head hlink (ih hl hit)

/-- The list leads from the item `a` down, each block following the next one. -/
def Leads (a : ForkItem β) (l : List (ForkItem β)) : Prop :=
  l.head? = some a ∧ List.IsChain (fun it prev => it.data.previous = prev.id ∧ it.num = prev.num + 1) l

lemma Forest.leads (hf : f.Forest) (ha : a ∈ f.alive) {l : List (ForkItem β)}
    (hl : List.IsChain f.Links (a :: l)) : Leads a (a :: l) := by
  refine ⟨rfl, ?_⟩
  induction l generalizing a with
  | nil => exact .singleton a
  | cons c l ih =>
      obtain ⟨hlink, hl⟩ := List.isChain_cons_cons.mp hl
      obtain ⟨hc, hprev, hnum⟩ := hf.step ha hlink
      exact .cons_cons ⟨hprev, hnum⟩ (ih hc hl)

/-- A list that is not empty has its head. -/
lemma mem_of_head? {l : List (ForkItem β)} {it : ForkItem β} (hhead : (l ++ [low]).head? = some a)
    (hit : it ∈ l) : a ∈ l := by
  cases l with
  | nil => cases hit
  | cons c l =>
      cases hhead
      exact List.mem_cons_self

/-- Two linked lists, the first of which ends where the second begins. -/
lemma Forest.leads_append (hf : f.Forest) (ha : a ∈ f.alive) {l₁ l : List (ForkItem β)}
    (hhead : (l₁ ++ [low]).head? = some a) (h₁ : List.IsChain f.Links (l₁ ++ [low]))
    (h : List.IsChain f.Links (low :: l)) : Leads a (l₁ ++ low :: l) := by
  have hall : List.IsChain f.Links (l₁ ++ low :: l) := List.isChain_split.mpr ⟨h₁, h⟩
  cases l₁ with
  | nil =>
      cases hhead
      exact hf.leads ha hall
  | cons c l₁ =>
      cases hhead
      exact hf.leads ha hall

/-! ### The loops -/

section Loops

variable (hf : f.Forest)

include hf

/-- The first two loops: down to the height `n`, at which there is an item or above an item that is
reached. -/
lemma descend_eq_ok {fuel n : ℕ} (ha : a ∈ f.alive) (hx : f.Reaches a x) (hn : x.num ≤ n)
    (hfuel : a.num ≤ fuel) :
    ∃ l low, f.descend fuel a n = .ok (l, low) ∧ f.Reaches a low ∧ f.Reaches low x ∧
      low.num = min a.num n ∧ (l ++ [low]).head? = some a ∧ List.IsChain f.Links (l ++ [low]) ∧
      ∀ it ∈ l, n < it.num := by
  induction fuel generalizing a with
  | zero =>
      have := num_pos a
      omega
  | succ fuel ih =>
      rw [descend]
      by_cases hlt : n < a.num
      · rcases hx.cases_head with rfl | ⟨c, hlink, hcx⟩
        · omega
        · obtain ⟨hc, -, hnum⟩ := hf.step ha hlink
          obtain ⟨l, low, hrun, hclow, hlowx, hlow, hhead, hchain, habove⟩ := ih hc hcx (by omega)
          have hlock : f.lock a = some c := hlink
          refine ⟨a :: l, low, ?_, .head hlink hclow, hlowx, by omega, rfl, ?_, ?_⟩
          · rw [if_pos hlt, hlock]
            simp only [hrun]
            rfl
          · refine List.isChain_cons.mpr ⟨fun d hd => ?_, hchain⟩
            cases hhead.symm.trans hd
            exact hlink
          · exact List.forall_mem_cons.mpr ⟨hlt, habove⟩
      · refine ⟨[], a, if_neg hlt, .refl, hx, by omega, rfl, .singleton a, List.forall_mem_nil _⟩

/-- The third loop: down to the blocks that have the same block before them. -/
lemma meet_eq_ok {fuel : ℕ} (ha : a ∈ f.alive) (hb : b ∈ f.alive) (hx : f.Reaches a x)
    (hy : f.Reaches b y) (hxy : x.data.previous = y.data.previous) (hab : a.num = b.num)
    (hfuel : a.num ≤ fuel) :
    ∃ l r, f.meet fuel a b = .ok (a :: l, b :: r) ∧ List.IsChain f.Links (a :: l) ∧
      List.IsChain f.Links (b :: r) ∧
      (∃ u v, (a :: l).getLast? = some u ∧ (b :: r).getLast? = some v ∧
        u.data.previous = v.data.previous) ∧
      (a.data = b.data → l = [] ∧ r = []) ∧
      (a.data ≠ b.data → ∀ u ∈ a :: l, ∀ v ∈ b :: r, u.data ≠ v.data) := by
  induction fuel generalizing a b with
  | zero =>
      have := num_pos a
      omega
  | succ fuel ih =>
      rw [meet]
      by_cases hne : a.data.previous ≠ b.data.previous
      · -- neither is the last of its branch: that would be the other's height too
        have hnum := num_eq_of_previous hxy
        rcases hx.cases_head with rfl | ⟨c, hac, hcx⟩
        · cases hf.eq_of_num hb hy (by omega)
          exact absurd hxy hne
        rcases hy.cases_head with rfl | ⟨d, hbd, hdy⟩
        · cases hf.eq_of_num ha hx (by omega)
          exact absurd hxy hne
        obtain ⟨hc, hcprev, hcnum⟩ := hf.step ha hac
        obtain ⟨hd, hdprev, hdnum⟩ := hf.step hb hbd
        have hcd : c.data ≠ d.data := by
          intro h
          rw [hcprev, hdprev] at hne
          exact hne (congrArg SignedBlock.id h)
        obtain ⟨l, r, hrun, hl, hr, hlast, -, hapart⟩ := ih hc hd hcx hdy (by omega) (by omega)
        have hlocka : f.lock a = some c := hac
        have hlockb : f.lock b = some d := hbd
        refine ⟨c :: l, d :: r, ?_, .cons_cons hac hl, .cons_cons hbd hr, ?_, fun h => ?_, ?_⟩
        · rw [if_pos hne, hlocka, hlockb]
          simp only [hrun]
          rfl
        · simpa only [List.getLast?_cons_cons] using hlast
        · exact absurd (congrArg SignedBlock.previous h) hne
        · intro hne'
          have hlow : ∀ u ∈ c :: l, u.num < a.num := fun u hu => by
            have := (hf.reaches hc (reaches_of_mem hl hu)).2
            omega
          have hlow' : ∀ v ∈ d :: r, v.num < b.num := fun v hv => by
            have := (hf.reaches hd (reaches_of_mem hr hv)).2
            omega
          intro u hu v hv huv
          have hnum : u.num = v.num := congrArg SignedBlock.blockNum huv
          rcases List.mem_cons.mp hu with rfl | hu <;> rcases List.mem_cons.mp hv with rfl | hv
          · exact hne' huv
          · have := hlow' v hv
            omega
          · have := hlow u hu
            omega
          · exact hapart hcd u hu v hv huv
      · rw [if_neg hne]
        refine ⟨[], [], rfl, .singleton a, .singleton b, ⟨a, b, rfl, rfl, not_ne_iff.mp hne⟩,
          fun _ => ⟨rfl, rfl⟩, fun h u hu v hv => ?_⟩
        rw [List.mem_singleton.mp hu, List.mem_singleton.mp hv]
        exact h

end Loops

/-! ### The branches -/

/-- **Every fork branch is found back.** The branches of two blocks that have a common ancestor lead
down from them, the last blocks follow the same block, and the only block on both is the lower one of
the two, if it is the other or an ancestor of it. -/
theorem fetchBranchFrom_finds {first second : BlockId} (hf : f.Forest)
    (ha : f.fetchBlock first = some a) (hb : f.fetchBlock second = some b) (hab : f.Related a b) :
    ∃ l r, f.fetchBranchFrom first second = .ok (l, r) ∧ Leads a l ∧ Leads b r ∧
      (∃ u v, l.getLast? = some u ∧ r.getLast? = some v ∧ u.data.previous = v.data.previous) ∧
      ∀ block, (block ∈ l.map (·.data) ∧ block ∈ r.map (·.data)) ↔
        (block = b.data ∧ f.Ancestor a b) ∨ (block = a.data ∧ f.Ancestor b a) := by
  have hmema := mem_alive.mpr (.inl (fetchBlock_mem_index ha))
  have hmemb := mem_alive.mpr (.inl (fetchBlock_mem_index hb))
  obtain ⟨x, y, hx, hy, hxy⟩ := hab
  have hnum := num_eq_of_previous hxy
  have hxa := (hf.reaches hmema hx).2
  have hyb := (hf.reaches hmemb hy).2
  -- down to the same height
  obtain ⟨l₁, a', hrun₁, haa', ha'x, hnum₁, hhead₁, hchain₁, habove₁⟩ :=
    descend_eq_ok hf (n := b.num) hmema hx (by omega) le_rfl
  have hmema' := (hf.reaches hmema haa').1
  have hxa' := (hf.reaches hmema' ha'x).2
  obtain ⟨r₁, b', hrun₂, hbb', hb'y, hnum₂, hhead₂, hchain₂, habove₂⟩ :=
    descend_eq_ok hf (n := a'.num) hmemb hy (by omega) le_rfl
  have hmemb' := (hf.reaches hmemb hbb').1
  -- down to the common ancestor
  obtain ⟨l, r, hrun, hl, hr, hlast, hsame, hapart⟩ :=
    meet_eq_ok hf hmema' hmemb' ha'x hb'y hxy (by omega) le_rfl
  have hleads := hf.leads_append hmema hhead₁ hchain₁ hl
  have hleads' := hf.leads_append hmemb hhead₂ hchain₂ hr
  refine ⟨l₁ ++ a' :: l, r₁ ++ b' :: r, ?_, hleads, hleads', ?_, fun block => ⟨?_, ?_⟩⟩
  · simp only [fetchBranchFrom, ha, hb]
    exact except_bind_eq_ok.mpr ⟨_, hrun₁, except_bind_eq_ok.mpr ⟨_, hrun₂,
      except_bind_eq_ok.mpr ⟨_, hrun, rfl⟩⟩⟩
  · simpa only [List.getLast?_append, List.getLast?_cons, Option.some_or] using hlast
  · rintro ⟨hmem, hmem'⟩
    obtain ⟨u, hu, rfl⟩ := List.mem_map.mp hmem
    obtain ⟨v, hv, huv⟩ := List.mem_map.mp hmem'
    have huv' : v.num = u.num := congrArg SignedBlock.blockNum huv
    -- the items from the given blocks down to the same height are above it
    have hlow : ∀ it ∈ a' :: l, it.num ≤ a'.num := fun it hit =>
      (hf.reaches hmema' (reaches_of_mem hl hit)).2
    have hlow' : ∀ it ∈ b' :: r, it.num ≤ b'.num := fun it hit =>
      (hf.reaches hmemb' (reaches_of_mem hr hit)).2
    have hu' : u ∈ a' :: l := by
      refine (List.mem_append.mp hu).resolve_left fun hu => ?_
      have := habove₁ u hu
      rcases List.mem_append.mp hv with hv | hv
      · have := habove₁ a (mem_of_head? hhead₁ hu)
        have := habove₂ b (mem_of_head? hhead₂ hv)
        omega
      · have := hlow' v hv
        omega
    have hv' : v ∈ b' :: r := by
      refine (List.mem_append.mp hv).resolve_left fun hv => ?_
      have := habove₂ v hv
      have := hlow u hu'
      omega
    by_cases hsame' : a'.data = b'.data
    · obtain ⟨rfl, rfl⟩ := hsame hsame'
      cases List.mem_singleton.mp hu'
      rcases le_total b.num a.num with hle | hle
      · cases hf.eq_of_num hmemb hbb' (by omega)
        exact .inl ⟨hsame', a', haa', hsame'⟩
      · cases hf.eq_of_num hmema haa' (by omega)
        exact .inr ⟨rfl, b', hbb', hsame'.symm⟩
    · exact absurd huv.symm (hapart hsame' u hu' v hv')
  · rintro (⟨rfl, z, haz, hz⟩ | ⟨rfl, z, hbz, hz⟩)
    · have hznum : z.num = b.num := congrArg SignedBlock.blockNum hz
      have hza := (hf.reaches hmema haz).2
      cases hf.eq_of_reaches hmema haz haa' (by omega)
      cases hf.eq_of_num hmemb hbb' (by omega)
      exact ⟨List.mem_map.mpr ⟨a', by simp, hz⟩, List.mem_map.mpr ⟨b, by simp, rfl⟩⟩
    · have hznum : z.num = a.num := congrArg SignedBlock.blockNum hz
      have hzb := (hf.reaches hmemb hbz).2
      cases hf.eq_of_reaches hmemb hbz hbb' (by omega)
      cases hf.eq_of_num hmema haa' (by omega)
      exact ⟨List.mem_map.mpr ⟨a, by simp, rfl⟩, List.mem_map.mpr ⟨b', by simp, hz⟩⟩

/-- A block on the block `previous`. -/
def blockOn (previous : BlockId) (digest : ℕ) : SignedBlock Unit :=
  { previous, timestamp := 0, digest }

/-- A first block with two branches on it, one of two blocks and one of one block. -/
def branching : ForkDatabase Unit where
  index := [⟨3, some 0, blockOn ⟨1, 1⟩ 4⟩, ⟨2, some 1, blockOn ⟨2, 2⟩ 3⟩,
    ⟨1, some 0, blockOn ⟨1, 1⟩ 2⟩, ⟨0, none, blockOn .zero 1⟩]
  head := some ⟨2, some 1, blockOn ⟨2, 2⟩ 3⟩
  nextPtr := 4

lemma branching_forest : branching.Forest := by
  rw [Forest]
  decide

/-- The two branches are found. -/
theorem fetchBranchFrom_finds_branching :
    ∃ l r, branching.fetchBranchFrom ⟨3, 3⟩ ⟨2, 4⟩ = .ok (l, r) ∧
      Leads ⟨2, some 1, blockOn ⟨2, 2⟩ 3⟩ l ∧ Leads ⟨3, some 0, blockOn ⟨1, 1⟩ 4⟩ r ∧
      ∃ u v, l.getLast? = some u ∧ r.getLast? = some v ∧ u.data.previous = v.data.previous := by
  have hrelated : branching.Related ⟨2, some 1, blockOn ⟨2, 2⟩ 3⟩ ⟨3, some 0, blockOn ⟨1, 1⟩ 4⟩ :=
    ⟨⟨1, some 0, blockOn ⟨1, 1⟩ 2⟩, _, .single rfl, .refl, rfl⟩
  have ha : branching.fetchBlock ⟨3, 3⟩ = some ⟨2, some 1, blockOn ⟨2, 2⟩ 3⟩ := rfl
  have hb : branching.fetchBlock ⟨2, 4⟩ = some ⟨3, some 0, blockOn ⟨1, 1⟩ 4⟩ := rfl
  obtain ⟨l, r, hrun, hl, hr, hlast, -⟩ := fetchBranchFrom_finds branching_forest ha hb hrelated
  exact ⟨l, r, hrun, hl, hr, hlast⟩

end ForkDatabase

end ZosCore
