import ZosCore.Chain.OpenSessions
import ZosCore.Chain.Dedupe

/-!
`~pending_transactions_restorer`: it tries the popped transactions and then those that were pending,
one after the other.

Each is tried in a session of its own in the pending session, which a transaction that throws leaves
as it was. With room for the sessions of proposals this is shown step by step; where there is less
room, the same happens as long as no session trims the state of an open one.

* `Ledger.tryAll`: the transactions of a list that apply in their order, and the objects they lead
  to.
* `Waits`: the pending session, with the objects under it and the transactions that led to it.
* **`Waits.restorePending`**, **`restored_of_untrimmed`**: after the restorer those transactions wait
  that apply in their order.
-/

namespace ZosCore

open Exec

variable {β ω : Type} {R : Rules β ω} {d : ℕ}

/-! ### Trying transactions in order -/

namespace Ledger

variable (R : Rules β ω) (record : Bool) (skip : SkipFlags) (d : ℕ)

/-- The transactions that apply when they are tried in their order, and the objects they lead to. -/
def tryAll : List (Transaction β) → Objects β ω → List (Transaction β) × Objects β ω
  | [], o => ([], o)
  | trx :: l, o =>
      match (transaction R record skip d trx o).2 with
      | .ok (_, o') => (trx :: (tryAll l o').1, (tryAll l o').2)
      | .error _ => tryAll l o

variable {R record skip d}

lemma tryAll_applied {trx : Transaction β} {l : List (Transaction β)} {o o' : Objects β ω} {a : Unit}
    (h : (transaction R record skip d trx o).2 = .ok (a, o')) :
    tryAll R record skip d (trx :: l) o =
      (trx :: (tryAll R record skip d l o').1, (tryAll R record skip d l o').2) := by
  simp only [tryAll, h]

lemma tryAll_rejected {trx : Transaction β} {l : List (Transaction β)} {o : Objects β ω} {e : Failure}
    (h : (transaction R record skip d trx o).2 = .error e) :
    tryAll R record skip d (trx :: l) o = tryAll R record skip d l o := by
  simp only [tryAll, h]

/-- Those that apply come in the order in which they were tried. -/
lemma tryAll_sublist (l : List (Transaction β)) (o : Objects β ω) :
    (tryAll R record skip d l o).1.Sublist l := by
  induction l generalizing o with
  | nil => exact List.Sublist.refl []
  | cons trx l ih =>
      rcases h : (transaction R record skip d trx o).2 with e | ⟨a, o'⟩
      · rw [tryAll_rejected h]
        exact (ih o).cons trx
      · rw [tryAll_applied h]
        exact (ih o').cons_cons trx

/-- Applied in order they lead to the same objects. -/
lemma forEach_tryAll (l : List (Transaction β)) (o : Objects β ω) :
    (forEach (transaction R record skip d) (tryAll R record skip d l o).1 o).2 =
      .ok ((), (tryAll R record skip d l o).2) := by
  induction l generalizing o with
  | nil => rfl
  | cons trx l ih =>
      rcases h : transaction R record skip d trx o with ⟨bs, e | ⟨a, o'⟩⟩
      · rw [tryAll_rejected (congrArg Prod.snd h)]
        exact ih o
      · rw [tryAll_applied (congrArg Prod.snd h)]
        exact (congrArg Prod.snd (bind_returns h)).trans (ih o')

lemma tryAll_append (l l' : List (Transaction β)) (o : Objects β ω) :
    tryAll R record skip d (l ++ l') o =
      ((tryAll R record skip d l o).1 ++
          (tryAll R record skip d l' (tryAll R record skip d l o).2).1,
        (tryAll R record skip d l' (tryAll R record skip d l o).2).2) := by
  induction l generalizing o with
  | nil => rfl
  | cons trx l ih =>
      rw [List.cons_append]
      rcases h : (transaction R record skip d trx o).2 with e | ⟨a, o'⟩
      · rw [tryAll_rejected h, tryAll_rejected h, ih]
      · rw [tryAll_applied h, tryAll_applied h, ih, List.cons_append]

end Ledger

/-- A database in an open session, with room for the sessions of proposals. -/
def sessionWith (record : Bool) (skip : SkipFlags) (d : ℕ) (o : Objects β ω) : Database β ω where
  objects := o
  undo := { disabled := false, maxSize := d, stack := [o], activeSessions := 1 }
  skipFlags := skip
  appStatus := { applyBlock := record, hasAccountHistoryPlugin := record }

/-- A transaction that applies was not in the transaction index, and is its newest entry then. -/
lemma Ledger.transaction_index {record : Bool} {skip : SkipFlags} {trx : Transaction β}
    {o o' : Objects β ω} {a : Unit} (hskip : skip.transactionDupeCheck = false)
    (h : (Ledger.transaction R record skip d trx o).2 = .ok (a, o')) :
    (∀ t ∈ o.transactions, t.trxId ≠ trx.id) ∧ o'.transactions = trx.object :: o.transactions := by
  -- the code does what the ledger says
  have hready : Ready d (sessionWith record skip d o) := ⟨.inl ⟨rfl, List.cons_ne_nil _ _⟩, le_rfl⟩
  have himpl := implements_applyTransaction (R := R) hready trx
  have hrecording : (sessionWith record skip d o).recording = record := by
    cases record <;> rfl
  rw [hrecording] at himpl
  have hcode := IndexIs.applyTransaction (R := R) (d := d) hskip trx (sessionWith record skip d o)
    ⟨rfl, rfl, rfl⟩
  rcases hr : Ledger.transaction R record skip d trx o with ⟨bs, r⟩
  rw [hr] at h
  simp only at h
  subst h
  change Implements d (sessionWith record skip d o) _ (Ledger.transaction R record skip d trx o)
    at himpl
  rw [hr] at himpl
  cases himpl with
  | returns hdb _ hobj _ =>
      obtain ⟨hindex, hrecorded⟩ := hcode.1 _ _ hdb
      rw [← hobj]
      exact ⟨hrecorded.fresh trx List.mem_cons_self, hindex.2.1⟩

/-- The transactions that apply have distinct ids, and were not in the transaction index. -/
lemma Ledger.tryAll_recorded (record : Bool) {skip : SkipFlags}
    (hskip : skip.transactionDupeCheck = false) (l : List (Transaction β)) (o : Objects β ω) :
    ((Ledger.tryAll R record skip d l o).1.map (·.id)).Nodup ∧
    ∀ trx ∈ (Ledger.tryAll R record skip d l o).1, o.isKnownTransaction trx.id = false := by
  have hknown : ∀ (o : Objects β ω) (trx : Transaction β),
      (∀ t ∈ o.transactions, t.trxId ≠ trx.id) ↔ o.isKnownTransaction trx.id = false := by
    intro o trx
    simp [Objects.isKnownTransaction]
  induction l generalizing o with
  | nil => exact ⟨List.nodup_nil, List.forall_mem_nil _⟩
  | cons trx l ih =>
      rcases h : (Ledger.transaction R record skip d trx o).2 with e | ⟨a, o'⟩
      · rw [Ledger.tryAll_rejected h]
        exact ih o
      · rw [Ledger.tryAll_applied h]
        obtain ⟨hnew, hindex⟩ := Ledger.transaction_index hskip h
        obtain ⟨hnodup, hrest⟩ := ih o'
        have hlater : ∀ trx' ∈ (Ledger.tryAll R record skip d l o').1,
            trx.id ≠ trx'.id ∧ ∀ t ∈ o.transactions, t.trxId ≠ trx'.id := by
          intro trx' htrx'
          have hfresh := (hknown o' trx').mpr (hrest trx' htrx')
          rw [hindex, List.forall_mem_cons] at hfresh
          exact hfresh
        refine ⟨List.nodup_cons.mpr ⟨fun hmem => ?_, hnodup⟩, List.forall_mem_cons.mpr ⟨?_, ?_⟩⟩
        · obtain ⟨trx', htrx', hid⟩ := List.mem_map.mp hmem
          exact (hlater trx' htrx').1 hid.symm
        · exact (hknown o trx).mp hnew
        · exact fun trx' htrx' => (hknown o trx').mp (hlater trx' htrx').2

/-! ### The pending session -/

/-- The transactions `k` are pending: they have led from the objects `head`, which are those under
the pending session, to the objects `o` in it. -/
structure Waits (head : Objects β ω) (k : List (Transaction β)) (o : Objects β ω)
    (db : Database β ω) : Prop where
  enabled : db.undo.disabled = false
  pendingTx : db.pendingTx = k
  objects : db.objects = o
  session : (db.pendingTxSession = false ∧ db.undo.activeSessions = 0 ∧ k = [] ∧ o = head) ∨
    (db.pendingTxSession = true ∧ db.undo.activeSessions = 1 ∧ ∃ P, db.undo.stack = head :: P)

/-- What is left alone when transactions are tried. -/
structure SameSettings (db db' : Database β ω) : Prop where
  maxSize : db'.undo.maxSize = db.undo.maxSize
  skipFlags : db'.skipFlags = db.skipFlags
  appStatus : db'.appStatus = db.appStatus
  poppedTx : db'.poppedTx = db.poppedTx

namespace SameSettings

variable {db db' db'' : Database β ω}

lemma refl (db : Database β ω) : SameSettings db db := ⟨rfl, rfl, rfl, rfl⟩

lemma trans (h : SameSettings db db') (h' : SameSettings db' db'') : SameSettings db db'' :=
  ⟨h'.maxSize.trans h.maxSize, h'.skipFlags.trans h.skipFlags, h'.appStatus.trans h.appStatus,
    h'.poppedTx.trans h.poppedTx⟩

lemma recording (h : SameSettings db db') : db'.recording = db.recording := by
  simp only [Database.recording, h.appStatus]

lemma of_frame {n : ℕ} (h : Frame n db db') : SameSettings db db' := by
  obtain ⟨_, -, hu⟩ := h.undo
  exact ⟨by rw [hu], h.skipFlags, h.appStatus, h.poppedTx⟩

end SameSettings

namespace Waits

variable {head o : Objects β ω} {k : List (Transaction β)} {db db' : Database β ω}
  {trx : Transaction β}

/-- The objects under the pending session. -/
lemma base (h : Waits head k o db) : db.undo.base db.objects = head := by
  rcases h.session with ⟨-, hactive, -, ho⟩ | ⟨-, hactive, P, hP⟩
  · rw [UndoDatabase.base, hactive, h.objects, ho]
    rfl
  · rw [UndoDatabase.base, hactive, hP]
    rfl

/-- The pending session stays when the oldest undo states are trimmed. -/
lemma of_frame {n : ℕ} (h : Waits head k o db) (hopen : db.pendingTxSession = true)
    (hframe : Frame n db db') (hroom : n ≤ db.undo.maxSize) (ho : db'.objects = o) :
    Waits head k o db' := by
  obtain ⟨m, hm, hu⟩ := hframe.undo
  have henabled : db'.undo.disabled = false := by
    rw [hu]
    exact h.enabled
  refine ⟨henabled, hframe.pendingTx.trans h.pendingTx, ho,
    .inr ⟨hframe.pendingTxSession.trans hopen, ?_⟩⟩
  rcases h.session with ⟨hclosed, -⟩ | ⟨-, hactive, P, hP⟩
  · rw [hclosed] at hopen
    cases hopen
  · obtain ⟨m, rfl⟩ : ∃ i, m = i + 1 := ⟨m - 1, by omega⟩
    refine ⟨by rw [hu]; exact hactive, P.take m, ?_⟩
    rw [hu]
    simp only [hP, List.take_succ_cons]

/-- The pending session is opened if it is not open yet. -/
lemma exists_open (h : Waits head k o db) : ∃ db', SameSettings db db' ∧ Waits head k o db' ∧
    db'.pendingTxSession = true ∧
    ∀ trx, Database.pushTransactionInner R d trx db = Database.inSession false (do
      Database.applyTransaction R d trx
      Exec.update fun db => { db with pendingTx := db.pendingTx ++ [trx] }
      Database.sessionMerge) db' := by
  rcases h.session with ⟨hclosed, hactive, rfl, rfl⟩ | ⟨hopen, -⟩
  · refine ⟨{ db.opened with pendingTxSession := true }, ⟨rfl, rfl, rfl, rfl⟩,
      ⟨rfl, h.pendingTx, h.objects, .inr ⟨rfl, congrArg (· + 1) hactive,
        db.undo.stack.take db.undo.maxSize, ?_⟩⟩, rfl, fun trx => ?_⟩
    · exact congrArg (· :: db.undo.stack.take db.undo.maxSize) h.objects
    · refine (bind_ok (gets_apply _ _)).trans ?_
      rw [hclosed]
      have henabled : (db.undo.disabled && !false) = false := by rw [h.enabled]; rfl
      have hstart := startUndoSession_eq henabled
      exact (bind_ok hstart).trans (bind_ok (update_apply _ _))
  · refine ⟨db, .refl db, h, hopen, fun trx => ?_⟩
    refine (bind_ok (gets_apply _ _)).trans ?_
    rw [hopen]
    rfl

/-- In the session of a transaction the code does what the ledger says. -/
lemma implements (h : Waits head k o db) (hroom : d ≤ db.undo.maxSize) (trx : Transaction β) :
    Implements d db.opened (Database.applyTransaction R d trx)
      (Ledger.transaction R db.recording db.skipFlags d trx o) := by
  have hready : Ready d db.opened := Ready.opened hroom
  have himpl := implements_applyTransaction (R := R) hready trx
  have hobjects : db.opened.objects = o := h.objects
  rw [hobjects] at himpl
  exact himpl

/-- The state under the pending session is not trimmed in the session of a transaction. -/
lemma frame_opened (h : Waits head k o db) (hopen : db.pendingTxSession = true)
    (hroom : d + 1 ≤ db.undo.maxSize) (hframe : Frame d db.opened db') :
    ∃ P, db'.undo.stack = db.objects :: head :: P ∧ db'.undo.activeSessions = 2 ∧
      db'.undo.disabled = false := by
  rcases h.session with ⟨hclosed, -⟩ | ⟨-, hactive, P, hP⟩
  · rw [hclosed] at hopen
    cases hopen
  · obtain ⟨n, hn, hu⟩ := hframe.undo
    have hmax : db.opened.undo.maxSize = db.undo.maxSize := rfl
    obtain ⟨m, rfl⟩ : ∃ m, n = m + 2 := ⟨n - 2, by omega⟩
    obtain ⟨s, hs⟩ : ∃ s, db.undo.maxSize = s + 1 := ⟨db.undo.maxSize - 1, by omega⟩
    have hopened : db.opened.undo.stack = db.objects :: head :: P.take s := by
      change db.objects :: db.undo.stack.take db.undo.maxSize = _
      rw [hP, hs, List.take_succ_cons]
    refine ⟨(P.take s).take m, ?_, ?_, ?_⟩
    · rw [hu]
      simp only [hopened, List.take_succ_cons]
    · rw [hu]
      exact congrArg (· + 1) hactive
    · rw [hu]
      rfl

/-- So does it in the session of a transaction that is pushed. -/
lemma exists_implements {r : Except Failure (Unit × Objects β ω)} (h : Waits head k o db)
    (hroom : d + 1 ≤ db.undo.maxSize)
    (ho : (Ledger.transaction R db.recording db.skipFlags d trx o).2 = r) :
    ∃ db' bs, SameSettings db db' ∧ Waits head k o db' ∧ db'.pendingTxSession = true ∧
      (∀ trx, Database.pushTransactionInner R d trx db = Database.inSession false (do
        Database.applyTransaction R d trx
        Exec.update fun db => { db with pendingTx := db.pendingTx ++ [trx] }
        Database.sessionMerge) db') ∧
      d + 1 ≤ db'.undo.maxSize ∧ (db'.undo.disabled && !false) = false ∧
      Implements d db'.opened (Database.applyTransaction R d trx) (bs, r) := by
  obtain ⟨db', hsame, h', hopen, hpush⟩ := h.exists_open (R := R) (d := d)
  have hroom' : d + 1 ≤ db'.undo.maxSize := hsame.maxSize ▸ hroom
  have himpl := h'.implements (R := R) (Nat.le_of_succ_le hroom') trx
  rw [hsame.recording, hsame.skipFlags] at himpl
  subst ho
  exact ⟨db', _, hsame, h', hopen, hpush, hroom', by rw [h'.enabled]; rfl, himpl⟩

/-- A transaction that applies is the last one that waits. -/
lemma pushTransactionInner_applied {o' : Objects β ω} {a : Unit} (h : Waits head k o db)
    (hroom : d + 1 ≤ db.undo.maxSize)
    (ho : (Ledger.transaction R db.recording db.skipFlags d trx o).2 = .ok (a, o')) :
    ∃ db', Database.pushTransactionInner R d trx db = (.ok (), db') ∧ SameSettings db db' ∧
      Waits head (k ++ [trx]) o' db' := by
  obtain ⟨db₁, bs, hsame, h₁, hopen, hpush, hroom₁, henabled, himpl⟩ := h.exists_implements hroom ho
  cases himpl with
  | @returns _ _ _ db₂ hdb hframe hobj _ =>
      obtain ⟨P, hstack, hactive, henabled₂⟩ := h₁.frame_opened hopen hroom₁ hframe
      have hmerge : Database.sessionMerge { db₂ with pendingTx := db₂.pendingTx ++ [trx] } = _ :=
        sessionMerge_eq (by simp only [hactive]; decide) hstack (.inl (List.cons_ne_nil _ _))
      have hrest : (do
          Exec.update fun db => { db with pendingTx := db.pendingTx ++ [trx] }
          Database.sessionMerge : Act β ω Unit) db₂ = _ :=
        (bind_ok (update_apply _ _)).trans hmerge
      have hexit : ∀ db : Database β ω,
          Database.disableOnExit (db₁.undo.disabled && false) db = (.ok (), db) := by
        intro db
        rw [Bool.and_false]
        rfl
      refine ⟨_, (hpush trx).trans
        (inSession_returns henabled ((bind_ok hdb).trans hrest) (hexit _)), ?_, ?_⟩
      · have hsame₂ := SameSettings.of_frame hframe
        exact hsame.trans ⟨hsame₂.maxSize, hsame₂.skipFlags, hsame₂.appStatus, hsame₂.poppedTx⟩
      · refine ⟨henabled₂, ?_, hobj, .inr ⟨hframe.pendingTxSession.trans hopen, ?_, P, rfl⟩⟩
        · change db₂.pendingTx ++ [trx] = k ++ [trx]
          rw [hframe.pendingTx, ← h₁.pendingTx]
          rfl
        · change db₂.undo.activeSessions - 1 = 1
          rw [hactive]

/-- A transaction that throws leaves those that wait. -/
lemma pushTransactionInner_rejected {e : ChainError} (h : Waits head k o db)
    (hroom : d + 1 ≤ db.undo.maxSize)
    (ho : (Ledger.transaction R db.recording db.skipFlags d trx o).2 = .error (.fc e)) :
    ∃ db', Database.pushTransactionInner R d trx db = (.error (.fc e), db') ∧ SameSettings db db' ∧
      Waits head k o db' := by
  obtain ⟨db₁, bs, hsame, h₁, hopen, hpush, hroom₁, henabled, himpl⟩ := h.exists_implements hroom ho
  cases himpl with
  | throws hdb hframe _ =>
      obtain ⟨db₂, hundo, hframe', hobj, -, -⟩ :=
        hframe.sessionUndo henabled (Nat.le_of_succ_le hroom₁)
      refine ⟨db₂, (hpush trx).trans (inSession_throws henabled (bind_error hdb) hundo), ?_, ?_⟩
      · exact hsame.trans (SameSettings.of_frame hframe')
      · exact h₁.of_frame hopen hframe' hroom₁ (hobj.trans h₁.objects)

/-- A transaction that uses the call stack up ends the program. -/
lemma pushTransactionInner_crashes (h : Waits head k o db) (hroom : d + 1 ≤ db.undo.maxSize)
    (ho : (Ledger.transaction R db.recording db.skipFlags d trx o).2 = .error .crash) :
    (Database.pushTransactionInner R d trx db).1 = .error .crash := by
  obtain ⟨db₁, bs, hsame, h₁, -, hpush, hroom₁, henabled, himpl⟩ := h.exists_implements hroom ho
  cases himpl with
  | crashes hdb =>
      rw [hpush trx, inSession_crashes henabled (bind_error hdb)]

/-- A transaction that is tried again waits if it applies. One that is known does not. -/
lemma retryTransaction (h : Waits head k o db) (hroom : d + 1 ≤ db.undo.maxSize)
    (hskip : db.skipFlags.transactionDupeCheck = false) (trx : Transaction β)
    (hend : (Database.retryTransaction R d trx db).1 ≠ .error .crash) :
    ∃ db', Database.retryTransaction R d trx db = (.ok (), db') ∧ SameSettings db db' ∧
      Waits head (k ++ (Ledger.tryAll R db.recording db.skipFlags d [trx] o).1)
        (Ledger.tryAll R db.recording db.skipFlags d [trx] o).2 db' := by
  have hknown : o.isKnownTransaction trx.id = true →
      Database.retryTransaction R d trx db = (.ok (), db) := by
    intro hknown
    refine (bind_ok (gets_apply _ _)).trans ?_
    rw [h.objects, hknown]
    rfl
  have hnew : o.isKnownTransaction trx.id = false → Database.retryTransaction R d trx db =
      Database.catchFc (Database.pushTransactionInner R d trx) (fun _ => Pure.pure ()) db := by
    intro hnew
    refine (bind_ok (gets_apply _ _)).trans ?_
    rw [h.objects, hnew]
    rfl
  rcases hr : (Ledger.transaction R db.recording db.skipFlags d trx o).2 with e | ⟨a, o'⟩
  · rw [Ledger.tryAll_rejected hr, Ledger.tryAll, List.append_nil]
    cases hid : o.isKnownTransaction trx.id with
    | true => exact ⟨db, hknown hid, .refl db, h⟩
    | false =>
        rw [hnew hid] at hend ⊢
        cases e with
        | fc e =>
            obtain ⟨db₁, hpush, hsame, h₁⟩ := h.pushTransactionInner_rejected hroom hr
            exact ⟨db₁, catchIf_caught hpush rfl, hsame, h₁⟩
        | crash =>
            rcases hpush : Database.pushTransactionInner R d trx db with ⟨r, db₁⟩
            have hcrash := h.pushTransactionInner_crashes hroom hr
            rw [hpush] at hcrash
            simp only at hcrash
            subst hcrash
            exact absurd (congrArg Prod.fst (catchIf_missed hpush rfl)) hend
  · obtain ⟨hfresh, -⟩ := Ledger.transaction_index hskip hr
    have hid : o.isKnownTransaction trx.id = false := by simpa [Objects.isKnownTransaction] using hfresh
    obtain ⟨db₁, hpush, hsame, h₁⟩ := h.pushTransactionInner_applied hroom hr
    rw [Ledger.tryAll_applied hr, Ledger.tryAll]
    exact ⟨db₁, (hnew hid).trans (catchIf_ok hpush), hsame, h₁⟩

/-- So do the transactions that are tried again one after the other. -/
lemma forEach_retryTransaction (h : Waits head k o db) (hroom : d + 1 ≤ db.undo.maxSize)
    (hskip : db.skipFlags.transactionDupeCheck = false) (l : List (Transaction β))
    (hend : (Exec.forEach (Database.retryTransaction R d) l db).1 ≠ .error .crash) :
    ∃ db', Exec.forEach (Database.retryTransaction R d) l db = (.ok (), db') ∧
      SameSettings db db' ∧
      Waits head (k ++ (Ledger.tryAll R db.recording db.skipFlags d l o).1)
        (Ledger.tryAll R db.recording db.skipFlags d l o).2 db' := by
  induction l generalizing db k o with
  | nil =>
      refine ⟨db, rfl, .refl db, ?_⟩
      rw [Ledger.tryAll, List.append_nil]
      exact h
  | cons trx l ih =>
      rw [forEach_cons] at hend ⊢
      obtain ⟨db₁, hretry, hsame, h₁⟩ := h.retryTransaction hroom hskip trx (ne_error_of_bind hend)
      rw [bind_ok hretry] at hend ⊢
      obtain ⟨db', hrest, hsame', h'⟩ := ih h₁ (hsame.maxSize ▸ hroom) (hsame.skipFlags ▸ hskip) hend
      rw [hsame.recording, hsame.skipFlags, List.append_assoc] at h'
      rw [← List.singleton_append, Ledger.tryAll_append]
      exact ⟨db', hrest, hsame.trans hsame', h'⟩

/-- **`~pending_transactions_restorer`**, with room for the sessions of proposals: the popped and then
the pending transactions are tried. -/
lemma restorePending (h : Waits head [] head db) (hroom : d + 1 ≤ db.undo.maxSize)
    (hskip : db.skipFlags.transactionDupeCheck = false) (pending : List (Transaction β))
    (hend : (Database.restorePending R d pending db).1 ≠ .error .crash) :
    ∃ db', Database.restorePending R d pending db = (.ok (), db') ∧ db'.poppedTx = [] ∧
      Waits head (Ledger.tryAll R db.recording db.skipFlags d (db.poppedTx ++ pending) head).1
        (Ledger.tryAll R db.recording db.skipFlags d (db.poppedTx ++ pending) head).2 db' := by
  have hstart : Database.restorePending R d pending db =
      (Exec.forEach (Database.retryTransaction R d) db.poppedTx >>= fun _ => (do
        Exec.update fun db => { db with poppedTx := [] }
        Exec.forEach (Database.retryTransaction R d) pending)) db := bind_ok (gets_apply _ _)
  rw [hstart] at hend ⊢
  obtain ⟨db₁, hpopped, hsame, h₁⟩ := h.forEach_retryTransaction hroom hskip _
    (ne_error_of_bind hend)
  rw [bind_ok hpopped, bind_ok (update_apply _ _)] at hend ⊢
  have h₂ : Waits head _ _ { db₁ with poppedTx := [] } :=
    ⟨h₁.enabled, h₁.pendingTx, h₁.objects, h₁.session⟩
  obtain ⟨db', hpending, hsame', h'⟩ := h₂.forEach_retryTransaction (R := R) (d := d)
    (hsame.maxSize ▸ hroom) (hsame.skipFlags ▸ hskip) pending hend
  have hrecording : ({ db₁ with poppedTx := [] } : Database β ω).recording = db.recording :=
    hsame.recording
  have hflags : ({ db₁ with poppedTx := [] } : Database β ω).skipFlags = db.skipFlags :=
    hsame.skipFlags
  rw [hrecording, hflags, List.nil_append] at h'
  rw [Ledger.tryAll_append]
  exact ⟨db', hpending, hsame'.poppedTx, h'⟩

end Waits

/-- The pending transactions after `~pending_transactions_restorer`: of the popped ones and then
`pending` those that apply in their order. -/
structure PendingRestored (R : Rules β ω) (d : ℕ) (pending : List (Transaction β)) (db db' : Database β ω) :
    Prop where
  poppedTx : db'.poppedTx = []
  pendingTx : db'.pendingTx =
    (Ledger.tryAll R db.recording db.skipFlags d (db.poppedTx ++ pending) db.objects).1
  objects : db'.objects =
    (Ledger.tryAll R db.recording db.skipFlags d (db.poppedTx ++ pending) db.objects).2
  base : db'.undo.base db'.objects = db.objects
  session : db'.pendingTx ≠ [] → db'.pendingTxSession = true

/-- **`~pending_transactions_restorer`** as long as no session trims the state of an open one. -/
theorem restored_of_untrimmed {db db' : Database β ω} {pending : List (Transaction β)}
    {r : Except Failure Unit} (henabled : db.undo.disabled = false) (hclosed : db.Closed)
    (hpending : db.pendingTx = []) (hskip : db.skipFlags.transactionDupeCheck = false)
    (hrun : Database.restorePending R d pending db = (r, db')) (hend : r ≠ .error .crash)
    (huntrimmed : ∀ e ∈ db'.undoLog, e.Untrimmed) :
    r = .ok () ∧ PendingRestored R d pending db db' := by
  -- the same with more room
  let u : UndoDatabase (Objects β ω) := { db.undo with maxSize := max db.undo.maxSize (d + 1) }
  have hu : db.undo.SameSessions u :=
    ⟨rfl, rfl, le_max_left _ _, hclosed.activeSessions ▸ Nat.zero_le _, rfl⟩
  obtain ⟨new, hnew, hsame⟩ := confined_restorePending (R := R) (d := d) pending db
  rw [hrun] at hnew hsame
  obtain ⟨u', log', hrun', hu'⟩ := hsame (fun e he => huntrimmed e (by
    rw [hnew]
    exact List.mem_append_left _ he)) u db.undoLog hu
  have hwaits : Waits db.objects [] db.objects (db.withUndo u db.undoLog) :=
    ⟨henabled, hpending, rfl, .inl ⟨hclosed.pendingTxSession, hclosed.activeSessions, rfl, rfl⟩⟩
  obtain ⟨db₁, hdb₁, hpopped, h₁⟩ := hwaits.restorePending (R := R) (d := d) (le_max_right _ _) hskip
    pending (by rw [hrun']; exact hend)
  obtain ⟨rfl, rfl⟩ := Prod.mk.inj (hrun'.symm.trans hdb₁)
  refine ⟨rfl, hpopped, h₁.pendingTx, h₁.objects, (hu'.base _).symm.trans h₁.base, fun hne => ?_⟩
  rcases h₁.session with ⟨-, -, hnil, -⟩ | ⟨hopen, -⟩
  · exact absurd (h₁.pendingTx.trans hnil) hne
  · exact hopen

end ZosCore
