import Mathlib.Data.List.TakeWhile
import ZosCore.Plugins.HistoryIndex

/-!
`account_history_plugin::get_account_history`.

The query walks the index `by_op`, which all accounts share, backwards from the `lower_bound` of
the account and the start. The first entry of the index ends the walk without being looked at;
it is added afterwards if `stop` is 0, whatever the start.

* `byOp`, `mostRecent`, `lowerBound`, `walk`, `getAccountHistory`: the query.
* `inWindow`, `window`: the operations that are asked for.
* **`collect_eq`**: what the walk collects along the entries from the iterator to the first one.
* **`getAccountHistory_iff`**: over every `Indexed` database the query returns the window exactly if
  it is `Served`: it does not begin behind the index, and it does not depend on its first entry.
-/

namespace ZosCore.AccountHistory

variable {α ρ : Type}

/-! ### The query -/

section Query

variable (db : ObjectDatabase (HistoryObject α ρ))

/-- The order of the index `by_op`. -/
def OpLE (x y : AccountTransactionHistory) : Prop :=
  x.account < y.account ∨ x.account = y.account ∧ x.operationId ≤ y.operationId

instance : DecidableRel OpLE := fun _ _ => inferInstanceAs (Decidable (_ ∨ _))

/-- The index `by_op`. -/
def byOp : List AccountTransactionHistory :=
  ((transactions db).map Prod.snd).insertionSort OpLE

/-- `account(db).statistics(db).most_recent_op(db)`, or `none` for what is caught. -/
def mostRecent (a : ℕ) : Option AccountTransactionHistory :=
  match db.find ⟨statisticsIndex, a⟩ with
  | some (.statistics st) =>
      match db.find ⟨transactionIndex, st.mostRecentOp⟩ with
      | some (.transaction e) => some e
      | _ => none
  | _ => none

/-- `itr->operation_id(db)`, with its id. What it throws is caught. -/
def fetch (o : ℕ) : List (ℕ × OperationHistory α ρ) :=
  match db.find ⟨operationIndex, o⟩ with
  | some (.operation h) => [(o, h)]
  | _ => []

/-- The entry is before the account and the operation in the index. -/
def Before (a o : ℕ) (e : AccountTransactionHistory) : Prop :=
  e.account < a ∨ e.account = a ∧ e.operationId < o

instance (a o : ℕ) : DecidablePred (Before a o) := fun _ => inferInstanceAs (Decidable (_ ∨ _))

/-- `by_op_idx.lower_bound`: the entry that the iterator is at and those before it, the nearest
first. `none` is the end of the index. -/
def lowerBound (a o : ℕ) : Option (AccountTransactionHistory × List AccountTransactionHistory) :=
  match (byOp db).dropWhile (Before a o) with
  | [] => none
  | e :: _ => some (e, ((byOp db).takeWhile (Before a o)).reverse)

variable (a start stop limit : ℕ)

/-- The loop. It ends with the result and the entry that the iterator is at. -/
def walk : AccountTransactionHistory → List AccountTransactionHistory →
    List (ℕ × OperationHistory α ρ) → List (ℕ × OperationHistory α ρ) × AccountTransactionHistory
  | e, [], result => (result, e)
  | e, e' :: before, result =>
      if e.account = a ∧ stop < e.operationId ∧ result.length < limit then
        walk e' before
          (if e.operationId ≤ start then result ++ fetch db e.operationId else result)
      else (result, e)

/-- The loop and what comes after it. -/
def collect (e : AccountTransactionHistory) (before : List AccountTransactionHistory)
    (result : List (ℕ × OperationHistory α ρ)) : List (ℕ × OperationHistory α ρ) :=
  let (result, e) := walk db a start stop limit e before result
  if stop = 0 ∧ result.length < limit ∧ e.account = a then result ++ fetch db e.operationId
  else result

/-- How the query may fail. -/
inductive QueryError where
  /-- `FC_ASSERT( limit <= 100 )`. -/
  | limit
  /-- The end of the index is dereferenced. -/
  | endOfIndex
  deriving DecidableEq, Repr

/-- `get_account_history`. -/
def getAccountHistory : Except QueryError (List (ℕ × OperationHistory α ρ)) :=
  if 100 < limit then .error .limit
  else
    match mostRecent db a with
    | none => .ok []
    | some node =>
        let start := if start = 0 ∨ node.operationId < start then node.operationId else start
        match lowerBound db a start with
        | none => .error .endOfIndex
        | some (e, before) => .ok (collect db a start stop limit e before [])

/-! ### What is asked for -/

/-- The operations of an account, the newest first. -/
def operationsOf : List ℕ :=
  (((transactions db).filter fun x => x.2.account = a).map fun x =>
    x.2.operationId).insertionSort (· ≥ ·)

/-- The operations of the account that are not after `start` and after `stop`. -/
def inWindow : List ℕ :=
  (operationsOf db a).filter fun o => (start = 0 ∨ o ≤ start) ∧ (stop = 0 ∨ stop < o)

/-- The first `limit` of them, with their objects. -/
def window : List (ℕ × OperationHistory α ρ) :=
  ((inWindow db a start stop).take limit).flatMap (fetch db)

/-- The query does not begin behind the index, and what it returns does not depend on the first
entry of the index. -/
structure Served : Prop where
  begins : mostRecent db a ≠ none → ∃ x ∈ transactions db, a ≤ x.2.account
  /-- Where `stop` is 0 the first entry is added, even if it is after `start`. -/
  unstopped : stop = 0 → ∀ e ∈ (byOp db).head?, e.account = a →
    limit = 0 ∨ start = 0 ∨ e.operationId ≤ start
  /-- Where `stop` is not 0 the first entry is not looked at. -/
  stopped : stop ≠ 0 → ∀ e ∈ (byOp db).head?, e.account = a →
    e.operationId ∈ inWindow db a start stop → limit < (inWindow db a start stop).length

end Query

/-! ### The walk -/

section Walk

variable {db : ObjectDatabase (HistoryObject α ρ)} {a start stop limit : ℕ}
  {e z : AccountTransactionHistory} {before l : List AccountTransactionHistory}

/-- The strict order of the index. -/
def OpLT (x y : AccountTransactionHistory) : Prop :=
  x.account < y.account ∨ x.account = y.account ∧ x.operationId < y.operationId

/-- The entry is one that is asked for. -/
def Wanted (a start stop : ℕ) (e : AccountTransactionHistory) : Prop :=
  e.account = a ∧ e.operationId ≤ start ∧ (stop = 0 ∨ stop < e.operationId)

instance : DecidablePred (Wanted a start stop) := fun _ => inferInstanceAs (Decidable (_ ∧ _))

/-- What comes for the entry at which the walk must end, the first one of the index. -/
def lastOne (a stop : ℕ) (z : AccountTransactionHistory) : List AccountTransactionHistory :=
  if stop = 0 ∧ z.account = a then [z] else []

/-- The objects of a list of entries. -/
def objects (db : ObjectDatabase (HistoryObject α ρ)) (l : List AccountTransactionHistory) :
    List (ℕ × OperationHistory α ρ) :=
  l.flatMap fun e => fetch db e.operationId

lemma objects_cons : objects db (e :: l) = fetch db e.operationId ++ objects db l := List.flatMap_cons

lemma length_objects (h : ∀ e ∈ l, (fetch db e.operationId).length = 1) :
    (objects db l).length = l.length := by
  induction l with
  | nil => rfl
  | cons e l ih =>
      rw [objects_cons, List.length_append, h e List.mem_cons_self,
        ih fun e' he' => h e' (List.mem_cons_of_mem _ he'), List.length_cons, Nat.add_comm]

lemma take_objects (h : ∀ e ∈ l, (fetch db e.operationId).length = 1) (n : ℕ) :
    (objects db l).take n = objects db (l.take n) := by
  induction l generalizing n with
  | nil => simp [objects]
  | cons e l ih =>
      have he := h e List.mem_cons_self
      cases n with
      | zero => rfl
      | succ n =>
          rw [objects_cons, List.take_succ_cons, objects_cons, List.take_append,
            ih fun e' he' => h e' (List.mem_cons_of_mem _ he'), he, Nat.add_sub_cancel,
            List.take_of_length_le (by omega)]

/-- Nothing is asked for behind an entry that is not after `stop`, or that belongs to an account
before `a`. -/
lemma filter_wanted_eq_nil (start : ℕ) (hl : (e :: l).Pairwise fun x y => OpLT y x)
    (he : e.account < a ∨ e.account = a ∧ e.operationId ≤ stop) :
    ∀ x ∈ l, ¬ Wanted a start stop x ∧ (stop = 0 → x.account ≠ a) := by
  intro x hx
  have hlt : OpLT x e := (List.pairwise_cons.mp hl).1 x hx
  unfold OpLT at hlt
  unfold Wanted
  omega

/-- What is done where the loop ends. -/
lemma collect_of_not {result : List (ℕ × OperationHistory α ρ)} (h : before = [] ∨
    ¬ (e.account = a ∧ stop < e.operationId ∧ result.length < limit)) :
    collect db a start stop limit e before result =
      if stop = 0 ∧ result.length < limit ∧ e.account = a then result ++ fetch db e.operationId
      else result := by
  have hwalk : walk db a start stop limit e before result = (result, e) := by
    cases before with
    | nil => rfl
    | cons e' before => rw [walk, if_neg (h.resolve_left (List.cons_ne_nil _ _))]
  rw [collect, hwalk]

/-- **The walk.** Along the entries it collects what is asked for, up to `limit`; the last entry is
not looked at, but added if `stop` is 0. -/
lemma collect_eq (hl : (e :: before).Pairwise fun x y => OpLT y x)
    (hle : ∀ x ∈ e :: before, x.account ≤ a)
    (hfetch : ∀ x ∈ e :: before, (fetch db x.operationId).length = 1)
    {result : List (ℕ × OperationHistory α ρ)} (hresult : result.length ≤ limit) :
    collect db a start stop limit e before result =
      (result ++ objects db (((e :: before).dropLast.filter (Wanted a start stop)) ++
        lastOne a stop ((e :: before).getLast (List.cons_ne_nil _ _)))).take limit := by
  induction before generalizing e result with
  | nil =>
      have he := hfetch e List.mem_cons_self
      rw [collect_of_not (.inl rfl), List.dropLast_singleton, List.filter_nil, List.nil_append,
        List.getLast_singleton, lastOne]
      by_cases hz : stop = 0 ∧ e.account = a
      · rw [if_pos hz]
        by_cases hlt : result.length < limit
        · rw [if_pos ⟨hz.1, hlt, hz.2⟩, objects_cons, List.take_of_length_le]
          · simp [objects]
          · simp only [objects, List.flatMap_nil, List.append_nil, List.length_append, he]
            exact hlt
        · rw [if_neg (by tauto), List.take_append_of_le_length (by omega),
            List.take_of_length_le hresult]
      · rw [if_neg hz, if_neg (by tauto)]
        simp [objects, hresult]
  | cons e' before ih =>
      have he := hfetch e List.mem_cons_self
      have hl' := (List.pairwise_cons.mp hl).2
      have hcons : (e :: e' :: before).dropLast = e :: (e' :: before).dropLast := rfl
      have hlast : (e :: e' :: before).getLast (List.cons_ne_nil _ _) =
          (e' :: before).getLast (List.cons_ne_nil _ _) := List.getLast_cons _
      rw [hcons, hlast]
      by_cases hcond : e.account = a ∧ stop < e.operationId ∧ result.length < limit
      · obtain ⟨hacc, hop, hlt⟩ := hcond
        -- the loop goes on
        have hwalk : collect db a start stop limit e (e' :: before) result =
            collect db a start stop limit e' before
              (if e.operationId ≤ start then result ++ fetch db e.operationId else result) := by
          rw [collect, walk, if_pos ⟨hacc, hop, hlt⟩, ← collect]
        have hwanted : Wanted a start stop e ↔ e.operationId ≤ start := by
          unfold Wanted
          omega
        have hlength : (if e.operationId ≤ start then result ++ fetch db e.operationId
            else result).length ≤ limit := by
          split_ifs
          · rw [List.length_append, he]
            exact hlt
          · exact hresult
        rw [hwalk, ih hl' (fun x hx => hle x (List.mem_cons_of_mem _ hx))
          (fun x hx => hfetch x (List.mem_cons_of_mem _ hx)) hlength]
        by_cases hstart : e.operationId ≤ start
        · rw [if_pos hstart, List.filter_cons_of_pos (by simpa using hwanted.mpr hstart),
            List.cons_append, objects_cons, List.append_assoc]
        · rw [if_neg hstart, List.filter_cons_of_neg (by simpa using mt hwanted.mp hstart)]
      · -- the loop ends here
        rw [collect_of_not (.inr hcond)]
        by_cases hlt : result.length < limit
        swap
        · rw [if_neg (by tauto), List.take_append_of_le_length (by omega),
            List.take_of_length_le hresult]
        have hend : e.account < a ∨ e.account = a ∧ e.operationId ≤ stop := by
          have hacc := hle e List.mem_cons_self
          omega
        have hrest := filter_wanted_eq_nil start hl hend
        have hnone : (e' :: before).dropLast.filter (Wanted a start stop) = [] := by
          refine List.filter_eq_nil_iff.mpr fun x hx => ?_
          simpa using (hrest x (List.mem_of_mem_dropLast hx)).1
        have hlastOne : lastOne a stop ((e' :: before).getLast (List.cons_ne_nil _ _)) = [] := by
          refine if_neg fun hz => ?_
          exact (hrest _ (List.getLast_mem _)).2 hz.1 hz.2
        by_cases hz : stop = 0 ∧ e.account = a
        · have hwanted : Wanted a start stop e := by
            unfold Wanted
            omega
          rw [if_pos ⟨hz.1, hlt, hz.2⟩, List.filter_cons_of_pos (by simpa using hwanted), hnone,
            hlastOne, List.append_nil, objects_cons, List.take_of_length_le]
          · simp [objects]
          · simp only [objects, List.flatMap_nil, List.append_nil, List.length_append, he]
            exact hlt
        · have hwanted : ¬ Wanted a start stop e := by
            unfold Wanted
            omega
          rw [if_neg (by tauto), List.filter_cons_of_neg (by simpa using hwanted), hnone, hlastOne]
          simp [objects, hresult]

end Walk

/-! ### The index -/

section Index

variable {db : ObjectDatabase (HistoryObject α ρ)} {a o start stop limit : ℕ}
  {e node : AccountTransactionHistory} {before : List AccountTransactionHistory}

lemma Indexed.mem_byOp (h : Indexed db) :
    e ∈ byOp db ↔ ∃ n, db.find ⟨transactionIndex, n⟩ = some (.transaction e) := by
  simp [byOp, mem_transactions h.fresh]

lemma Indexed.fetch_byOp (h : Indexed db) (he : e ∈ byOp db) :
    (fetch db e.operationId).length = 1 := by
  obtain ⟨n, hn⟩ := h.mem_byOp.mp he
  obtain ⟨x, hx⟩ := h.operations n e hn
  rw [fetch, hx]
  rfl

/-- The index is in its order, and no two entries have one key. -/
lemma Indexed.pairwise_byOp (h : Indexed db) : (byOp db).Pairwise OpLT := by
  have htotal : Std.Total OpLE := ⟨fun x y => by unfold OpLE; omega⟩
  have htrans : IsTrans AccountTransactionHistory OpLE := ⟨fun x y z => by unfold OpLE; omega⟩
  have hnodup : (byOp db).Nodup := by
    refine (List.perm_insertionSort _ _).nodup_iff.mpr
      ((nodup_transactions db).map_on fun x hx y hy hxy => ?_)
    have hx' := (mem_transactions h.fresh).mp (show (x.1, x.2) ∈ transactions db from hx)
    have hy' := (mem_transactions h.fresh).mp (show (y.1, y.2) ∈ transactions db from hy)
    exact Prod.ext (h.unique _ _ _ _ hx' hy' (by rw [hxy]) (by rw [hxy])) hxy
  have hsorted : (byOp db).Pairwise OpLE := List.pairwise_insertionSort _ _
  refine (hsorted.and hnodup).imp_of_mem fun {x y} hx hy hxy => ?_
  obtain ⟨hle, hne⟩ := hxy
  obtain ⟨n, hn⟩ := h.mem_byOp.mp hx
  obtain ⟨n', hn'⟩ := h.mem_byOp.mp hy
  by_contra hlt
  unfold OpLE at hle
  unfold OpLT at hlt
  -- two entries with one key are one
  obtain rfl := h.unique n n' x y hn hn' (by omega) (by omega)
  rw [hn] at hn'
  cases hn'
  exact hne rfl

/-- The statistics of an account with entries name the newest one. -/
lemma Indexed.exists_mostRecent (h : Indexed db) (he : e ∈ byOp db) :
    ∃ node ∈ byOp db, mostRecent db e.account = some node ∧ node.account = e.account ∧
      e.operationId ≤ node.operationId := by
  obtain ⟨n, hn⟩ := h.mem_byOp.mp he
  obtain ⟨st, node, hst, hnode, hacc, hle⟩ := h.newest n e hn
  refine ⟨node, h.mem_byOp.mpr ⟨_, hnode⟩, ?_, hacc, hle⟩
  rw [mostRecent, hst]
  simp only
  rw [hnode]

/-- The operations of an account, read off the index. -/
lemma Indexed.operationsOf_eq (h : Indexed db) (a : ℕ) : operationsOf db a =
    ((byOp db).reverse.filter fun e => e.account = a).map fun e => e.operationId := by
  have hperm : (operationsOf db a).Perm
      (((byOp db).reverse.filter fun e => e.account = a).map fun e => e.operationId) := by
    refine (List.perm_insertionSort _ _).trans ?_
    have hbase : ((transactions db).map Prod.snd).Perm (byOp db).reverse :=
      (List.perm_insertionSort _ _).symm.trans (List.reverse_perm _).symm
    have hfilter := (hbase.filter fun e => e.account = a).map fun e => e.operationId
    rw [List.filter_map, List.map_map] at hfilter
    exact hfilter
  have hsorted : (((byOp db).reverse.filter fun e => e.account = a).map
      fun e => e.operationId).Pairwise (· ≥ ·) := by
    refine List.pairwise_map.mpr ?_
    have hpairs := (List.pairwise_reverse.mpr h.pairwise_byOp).filter fun e => e.account = a
    refine hpairs.imp_of_mem fun {x y} hx hy hyx => ?_
    have hx' : x.account = a := by simpa using (List.mem_filter.mp hx).2
    have hy' : y.account = a := by simpa using (List.mem_filter.mp hy).2
    unfold OpLT at hyx
    change y.operationId ≤ x.operationId
    omega
  exact hperm.eq_of_pairwise (fun x y _ _ hxy hyx => le_antisymm hyx hxy)
    (List.pairwise_insertionSort _ _) hsorted

lemma mem_operationsOf (h : Indexed db) :
    o ∈ operationsOf db a ↔ ∃ e ∈ byOp db, e.account = a ∧ e.operationId = o := by
  simp [h.operationsOf_eq, and_assoc]

/-- Where the iterator is. -/
lemma lowerBound_eq_some (h : lowerBound db a o = some (e, before)) :
    ∃ rest, byOp db = before.reverse ++ e :: rest ∧ (∀ x ∈ before, Before a o x) ∧
      ¬ Before a o e := by
  rw [lowerBound] at h
  split at h
  · cases h
  next e' rest hdrop =>
    obtain ⟨rfl, rfl⟩ := Prod.mk.inj (Option.some.inj h)
    refine ⟨rest, ?_, fun x hx => ?_, ?_⟩
    · rw [List.reverse_reverse, ← hdrop, List.takeWhile_append_dropWhile]
    · simpa using List.mem_takeWhile_imp (List.mem_reverse.mp hx)
    · have hhead := List.head?_dropWhile_not (fun x => decide (Before a o x)) (byOp db)
      rw [hdrop] at hhead
      simpa using hhead

lemma lowerBound_eq_none (h : lowerBound db a o = none) : ∀ x ∈ byOp db, Before a o x := by
  rw [lowerBound] at h
  split at h
  next hdrop => simpa using List.dropWhile_eq_nil_iff.mp hdrop
  · cases h

/-- What is asked for, read off the index, the start being set to the newest operation if need be. -/
lemma Indexed.inWindow_eq (h : Indexed db) (hnode : ∀ x ∈ byOp db, x.account = a →
      x.operationId ≤ node.operationId) :
    inWindow db a start stop = ((byOp db).reverse.filter (Wanted a
      (if start = 0 ∨ node.operationId < start then node.operationId else start) stop)).map
        fun e => e.operationId := by
  rw [inWindow, h.operationsOf_eq, List.filter_map, List.filter_filter]
  congr 1
  refine List.filter_congr fun x hx => ?_
  have hle := hnode x (List.mem_reverse.mp hx)
  simp only [Function.comp_apply, Wanted, ← Bool.decide_and]
  refine decide_eq_decide.mpr ?_
  constructor
  · rintro ⟨⟨hs, hp⟩, hacc⟩
    refine ⟨hacc, ?_, hp⟩
    have hx' := hle hacc
    split_ifs <;> omega
  · rintro ⟨hacc, hs, hp⟩
    refine ⟨⟨?_, hp⟩, hacc⟩
    split_ifs at hs <;> omega

/-- Two lists that differ in a last element only have the same first elements, if these are not too
many. -/
lemma objects_take_append_inj {q l l' : List AccountTransactionHistory}
    (hl : ∀ e ∈ q ++ l, (fetch db e.operationId).length = 1)
    (hl' : ∀ e ∈ q ++ l', (fetch db e.operationId).length = 1)
    (hne : l.length ≠ l'.length) (h1 : l.length ≤ 1) (h1' : l'.length ≤ 1) :
    objects db ((q ++ l).take limit) = objects db ((q ++ l').take limit) ↔ limit ≤ q.length := by
  constructor
  · intro heq
    have hlen := congrArg List.length heq
    rw [length_objects fun e he => hl e (List.mem_of_mem_take he),
      length_objects fun e he => hl' e (List.mem_of_mem_take he), List.length_take, List.length_take,
      List.length_append, List.length_append] at hlen
    omega
  · intro hle
    rw [List.take_append_of_le_length hle, List.take_append_of_le_length hle]

/-- What the query returns for an account with entries, and what is asked for: `q` are the entries
that are asked for, apart from the first one `z` of the index. -/
lemma Indexed.collect_window (h : Indexed db) (stop limit : ℕ) {rest : List AccountTransactionHistory}
    (hsplit : byOp db = before.reverse ++ e :: rest) (hacc : e.account = a)
    (hstart : ¬ Before a o e) (hnode : ∀ x ∈ byOp db, x.account = a →
      x.operationId ≤ node.operationId)
    (ho : o = if start = 0 ∨ node.operationId < start then node.operationId else start) :
    ∃ q z, z ∈ (byOp db).head? ∧ (∀ x ∈ q, OpLT z x ∧ Wanted a o stop x ∧ x ∈ byOp db) ∧
      collect db a o stop limit e before [] = objects db ((q ++ lastOne a stop z).take limit) ∧
      inWindow db a start stop =
        (q ++ if Wanted a o stop z then [z] else []).map fun e => e.operationId := by
  have hrev : (byOp db).reverse = rest.reverse ++ (e :: before) := by
    rw [hsplit, List.reverse_append, List.reverse_cons, List.reverse_reverse, List.append_assoc,
      List.singleton_append]
  have hmem : ∀ x ∈ e :: before, x ∈ byOp db := fun x hx =>
    List.mem_reverse.mp (by rw [hrev]; exact List.mem_append_right _ hx)
  have hsorted := List.pairwise_reverse.mpr h.pairwise_byOp
  rw [hrev, List.pairwise_append] at hsorted
  obtain ⟨-, hdesc, habove⟩ := hsorted
  set z := (e :: before).getLast (List.cons_ne_nil _ _) with hz
  have hparts : e :: before = (e :: before).dropLast ++ [z] :=
    (List.dropLast_append_getLast (List.cons_ne_nil _ _)).symm
  have hle : ∀ x ∈ e :: before, x.account ≤ a := by
    intro x hx
    rcases List.mem_cons.mp hx with rfl | hx
    · exact hacc.le
    · have hlt : OpLT x e := (List.pairwise_cons.mp hdesc).1 x hx
      unfold OpLT at hlt
      omega
  have hfetch : ∀ x ∈ e :: before, (fetch db x.operationId).length = 1 := fun x hx =>
    h.fetch_byOp (hmem x hx)
  have hall : ∀ x ∈ (e :: before).dropLast.filter (Wanted a o stop) ++ lastOne a stop z,
      (fetch db x.operationId).length = 1 := by
    intro x hx
    rcases List.mem_append.mp hx with hx | hx
    · exact hfetch x (List.mem_of_mem_dropLast (List.mem_filter.mp hx).1)
    · have hxz : x = z := by
        rw [lastOne] at hx
        split_ifs at hx
        · exact List.mem_singleton.mp hx
        · simp at hx
      rw [hxz]
      exact hfetch z (List.getLast_mem _)
  refine ⟨(e :: before).dropLast.filter (Wanted a o stop), z, ?_, fun x hx => ?_, ?_, ?_⟩
  · rw [← List.getLast?_reverse, hrev, List.getLast?_append_of_ne_nil _ (List.cons_ne_nil _ _),
      List.getLast?_eq_getLast_of_ne_nil (List.cons_ne_nil _ _)]
    rfl
  · obtain ⟨hx, hw⟩ := List.mem_filter.mp hx
    rw [hparts, List.pairwise_append] at hdesc
    exact ⟨hdesc.2.2 x hx z List.mem_cons_self, by simpa using hw,
      hmem x (List.mem_of_mem_dropLast hx)⟩
  · rw [collect_eq hdesc hle hfetch (Nat.zero_le _), List.nil_append, take_objects hall]
  · -- what is behind the iterator is after the start
    have hnone : rest.reverse.filter (Wanted a o stop) = [] := by
      refine List.filter_eq_nil_iff.mpr fun x hx => ?_
      have hlt : OpLT e x := habove x hx e List.mem_cons_self
      unfold OpLT at hlt
      unfold Before at hstart
      rw [decide_eq_true_eq, Wanted]
      omega
    rw [h.inWindow_eq hnode, ← ho, hrev, List.filter_append, hnone, List.nil_append]
    conv_lhs => rw [hparts, List.filter_append]
    congr 2
    by_cases hw : Wanted a o stop z
    · rw [if_pos hw, List.filter_cons_of_pos (by simpa using hw), List.filter_nil]
    · rw [if_neg hw, List.filter_cons_of_neg (by simpa using hw), List.filter_nil]

/-- Nothing is asked for of an account without entries. -/
lemma Indexed.served_of_forall_ne (h : Indexed db) (start stop limit : ℕ)
    (hnone : ∀ x ∈ byOp db, x.account ≠ a)
    (hbegins : mostRecent db a ≠ none → ∃ x ∈ transactions db, a ≤ x.2.account) :
    window db a start stop limit = [] ∧ Served db a start stop limit := by
  have hempty : inWindow db a start stop = [] := by
    refine List.filter_eq_nil_iff.mpr fun o ho => ?_
    obtain ⟨x, hx, hacc, -⟩ := (mem_operationsOf h).mp ho
    exact absurd hacc (hnone x hx)
  refine ⟨by rw [window, hempty, List.take_nil, List.flatMap_nil], hbegins,
    fun _ e he hacc => ?_, fun _ e he hacc => ?_⟩
  · exact absurd hacc (hnone e (List.mem_of_mem_head? he))
  · exact absurd hacc (hnone e (List.mem_of_mem_head? he))

/-- The first entry of the index decides whether what is returned is what was asked for. -/
lemma Indexed.window_iff (h : Indexed db) {q : List AccountTransactionHistory}
    {z : AccountTransactionHistory}
    (hbegins : mostRecent db a ≠ none → ∃ x ∈ transactions db, a ≤ x.2.account)
    (hnode : ∀ x ∈ byOp db, x.account = a → x.operationId ≤ node.operationId)
    (ho : o = if start = 0 ∨ node.operationId < start then node.operationId else start)
    (hz : z ∈ (byOp db).head?) (hq : ∀ x ∈ q, OpLT z x ∧ Wanted a o stop x ∧ x ∈ byOp db)
    (hwindow : inWindow db a start stop =
      (q ++ if Wanted a o stop z then [z] else []).map fun e => e.operationId) :
    objects db ((q ++ lastOne a stop z).take limit) = window db a start stop limit ↔
      Served db a start stop limit := by
  have hmem : z ∈ byOp db := List.mem_of_mem_head? hz
  have hfirst : ∀ e ∈ (byOp db).head?, e = z := fun e he => Option.mem_unique he hz
  have hobjects : window db a start stop limit =
      objects db ((q ++ if Wanted a o stop z then [z] else []).take limit) := by
    rw [window, hwindow, ← List.map_take, List.flatMap_map]
    rfl
  have hfetch : ∀ l : List AccountTransactionHistory, (∀ x ∈ l, x = z) →
      ∀ x ∈ q ++ l, (fetch db x.operationId).length = 1 := by
    intro l hl x hx
    rcases List.mem_append.mp hx with hx | hx
    · exact h.fetch_byOp (hq x hx).2.2
    · rw [hl x hx]
      exact h.fetch_byOp hmem
  rw [hobjects]
  by_cases hacc : z.account = a
  swap
  · -- the first entry is another account's
    have hw : ¬ Wanted a o stop z := fun hw => hacc hw.1
    rw [lastOne, if_neg (fun hc => hacc hc.2), if_neg hw]
    refine iff_of_true rfl ⟨hbegins, fun _ e he hea => ?_, fun _ e he hea => ?_⟩
    · exact absurd (hfirst e he ▸ hea) hacc
    · exact absurd (hfirst e he ▸ hea) hacc
  have hzle := hnode z hmem hacc
  by_cases hstop : stop = 0
  · rw [lastOne, if_pos ⟨hstop, hacc⟩]
    have hserved : Served db a start stop limit ↔ limit = 0 ∨ start = 0 ∨ z.operationId ≤ start := by
      refine ⟨fun hs => hs.unstopped hstop z hz hacc, fun hs => ⟨hbegins, fun _ e he _ => ?_,
        fun hne => absurd hstop hne⟩⟩
      rw [hfirst e he]
      exact hs
    rw [hserved]
    by_cases hw : Wanted a o stop z
    · rw [if_pos hw]
      refine iff_of_true rfl ?_
      obtain ⟨-, hle, -⟩ := hw
      split_ifs at ho <;> omega
    · rw [if_neg hw, objects_take_append_inj (hfetch [z] (by simp)) (hfetch [] (by simp)) (by simp)
        (by simp) (by simp)]
      -- all that is asked for is after the first entry, which is after the start
      have hafter : o < z.operationId := by
        unfold Wanted at hw
        omega
      have hqnil : q = [] := by
        refine List.eq_nil_iff_forall_not_mem.mpr fun x hx => ?_
        obtain ⟨hlt, ⟨hxa, hle, -⟩, -⟩ := hq x hx
        unfold OpLT at hlt
        omega
      rw [hqnil, List.length_nil]
      split_ifs at ho <;> omega
  · rw [lastOne, if_neg fun hc => hstop hc.1]
    have hserved : Served db a start stop limit ↔
        (z.operationId ∈ inWindow db a start stop → limit < (inWindow db a start stop).length) := by
      refine ⟨fun hs => hs.stopped hstop z hz hacc, fun hs => ⟨hbegins, fun h0 => absurd h0 hstop,
        fun _ e he _ => ?_⟩⟩
      rw [hfirst e he]
      exact hs
    have hin : z.operationId ∈ inWindow db a start stop ↔ Wanted a o stop z := by
      have hop : z.operationId ∈ operationsOf db a := (mem_operationsOf h).mpr ⟨z, hmem, hacc, rfl⟩
      simp only [inWindow, List.mem_filter, hop, true_and, decide_eq_true_eq, Wanted, hacc]
      split_ifs at ho <;> omega
    rw [hserved, hin, hwindow]
    by_cases hw : Wanted a o stop z
    · rw [if_pos hw, objects_take_append_inj (hfetch [] (by simp)) (hfetch [z] (by simp)) (by simp)
        (by simp) (by simp), List.length_map, List.length_append, List.length_singleton]
      simp [hw]
    · rw [if_neg hw]
      exact iff_of_true rfl fun hw' => absurd hw' hw

/-- **When the query returns the window.** -/
theorem getAccountHistory_iff (h : Indexed db) (hlimit : limit ≤ 100) :
    getAccountHistory db a start stop limit = .ok (window db a start stop limit) ↔
      Served db a start stop limit := by
  rw [getAccountHistory, if_neg (not_lt.mpr hlimit)]
  cases hrecent : mostRecent db a with
  | none =>
      have hnone : ∀ x ∈ byOp db, x.account ≠ a := by
        rintro x hx rfl
        obtain ⟨node, -, hnode, -⟩ := h.exists_mostRecent hx
        rw [hrecent] at hnode
        cases hnode
      obtain ⟨hwindow, hserved⟩ := h.served_of_forall_ne start stop limit hnone
        fun hne => absurd hrecent hne
      rw [hwindow]
      exact iff_of_true rfl hserved
  | some node =>
      simp only
      set o := if start = 0 ∨ node.operationId < start then node.operationId else start with ho
      have hole : o ≤ node.operationId := by
        split_ifs at ho <;> omega
      -- the newest entry of an account with entries
      have hown : ∀ x ∈ byOp db, x.account = a → node ∈ byOp db ∧ node.account = a ∧
          x.operationId ≤ node.operationId := by
        rintro x hx rfl
        obtain ⟨node', hmem, hnode', hacc, hle⟩ := h.exists_mostRecent hx
        rw [hrecent] at hnode'
        cases hnode'
        exact ⟨hmem, hacc, hle⟩
      cases hlower : lowerBound db a o with
      | none =>
          have hbefore := lowerBound_eq_none hlower
          refine iff_of_false (fun heq => by cases heq) fun hserved => ?_
          obtain ⟨⟨n, x⟩, hx, hle⟩ := hserved.begins (by rw [hrecent]; exact Option.some_ne_none _)
          have hx : x ∈ byOp db := h.mem_byOp.mpr ⟨n, (mem_transactions h.fresh).mp hx⟩
          rcases hbefore x hx with hlt | ⟨hacc, -⟩
          · exact absurd hle (not_le.mpr hlt)
          · obtain ⟨hmem, hacc', -⟩ := hown x hx hacc
            rcases hbefore node hmem with hlt | ⟨-, hlt⟩ <;> omega
      | some y =>
          obtain ⟨e, before⟩ := y
          obtain ⟨rest, hsplit, hbefore, hstart⟩ := lowerBound_eq_some hlower
          have hmem : e ∈ byOp db := by
            rw [hsplit]
            exact List.mem_append_right _ List.mem_cons_self
          have hbegins : mostRecent db a ≠ none → ∃ x ∈ transactions db, a ≤ x.2.account := by
            intro _
            obtain ⟨n, hn⟩ := h.mem_byOp.mp hmem
            refine ⟨(n, e), (mem_transactions h.fresh).mpr hn, ?_⟩
            unfold Before at hstart
            change a ≤ e.account
            omega
          simp only [Except.ok.injEq]
          by_cases hacc : e.account = a
          · obtain ⟨q, z, hz, hq, hcollect, hwindow⟩ := h.collect_window stop limit hsplit hacc
              hstart (fun x hx hxa => (hown x hx hxa).2.2) ho
            rw [hcollect]
            exact h.window_iff hbegins (fun x hx hxa => (hown x hx hxa).2.2) ho hz hq hwindow
          · -- the iterator is behind all entries of the account, which has none then
            have hnone : ∀ x ∈ byOp db, x.account ≠ a := by
              intro x hx hxa
              obtain ⟨hnode, hnodeacc, -⟩ := hown x hx hxa
              have hsorted := h.pairwise_byOp
              rw [hsplit, List.mem_append, List.mem_reverse] at hnode
              rw [hsplit, List.pairwise_append, List.pairwise_cons] at hsorted
              unfold Before at hstart hbefore
              rcases hnode with hnode | hnode
              · have hlt := hbefore node hnode
                omega
              · rcases List.mem_cons.mp hnode with rfl | hnode
                · exact hacc hnodeacc
                · have hlt : OpLT e node := hsorted.2.1.1 node hnode
                  unfold OpLT at hlt
                  omega
            have hcollect : collect db a o stop limit e before [] = [] := by
              rw [collect_of_not (.inr fun hc => hacc hc.1), if_neg (by tauto)]
            obtain ⟨hwindow, hserved⟩ := h.served_of_forall_ne start stop limit hnone hbegins
            rw [hcollect, hwindow]
            exact iff_of_true rfl hserved

end Index

/-- Three transfers: the whole history is asked for. -/
theorem getAccountHistory_threeTransfers :
    getAccountHistory (run (tagConfig 10 (by decide) false) oneAccount [transfers 3]).objs 0 0 0 100 =
      .ok (window (run (tagConfig 10 (by decide) false) oneAccount [transfers 3]).objs 0 0 0 100) := by
  refine (getAccountHistory_iff (indexed_run emptyHistory_oneAccount _) (by decide)).mpr
    ⟨fun _ => ?_, fun _ _ _ _ => .inr (.inl rfl), fun hne => absurd rfl hne⟩
  decide +kernel

/-- Five transfers, of whose entries two are kept: those after the operation 1 are asked for, and one
of them is missing. -/
theorem not_getAccountHistory : ¬ ∀ (db : ObjectDatabase (HistoryObject ℕ Unit))
    (a start stop limit : ℕ), Indexed db → limit ≤ 100 →
      getAccountHistory db a start stop limit = .ok (window db a start stop limit) := by
  intro hall
  set db := (run (tagConfig 2 (by decide) false) oneAccount [transfers 5]).objs with hdb
  have h := congrArg (fun r => r.toOption.map (List.map Prod.fst))
    (hall db 0 0 1 100 (indexed_run emptyHistory_oneAccount _) (by decide))
  have hreturned : ((getAccountHistory db 0 0 1 100).toOption.map (List.map Prod.fst)) = some [4] := by
    rw [hdb]
    decide +kernel
  have hwanted : (window db 0 0 1 100).map Prod.fst = [4, 3] := by
    rw [hdb]
    decide +kernel
  rw [hreturned] at h
  change some [4] = some ((window db 0 0 1 100).map Prod.fst) at h
  rw [hwanted] at h
  cases h

end ZosCore.AccountHistory
