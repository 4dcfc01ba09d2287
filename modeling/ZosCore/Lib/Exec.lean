import Mathlib.Tactic

/-!
Computations that carry a state and may throw, with rules of pre- and
postconditions for them.

An exception keeps the state in which it was thrown: what has been done before it
stays done unless somebody undoes it. So a computation is a function from a state
to a result *and* a state, and a triple speaks of both ways out.

* `Exec σ ε α`: a computation; `catchIf` handles the exceptions of one kind,
  `forEach` is a loop over a list.
* `Triple P x Q E`: from a state in `P`, if `x` returns then `Q` holds, and if it
  throws then `E` holds. `Triple.bind`, `Triple.catchIf` and `Triple.forEach` follow
  the program; `Keeps I x` is the triple of an invariant.
-/

namespace ZosCore

/-! ### Results without a state -/

/-- A sequence of two computations returns exactly if both do. -/
lemma except_bind_eq_ok {ε α β : Type} {x : Except ε α} {f : α → Except ε β} {b : β} :
    x >>= f = .ok b ↔ ∃ a, x = .ok a ∧ f a = .ok b := by
  cases x <;> simp [bind, Except.bind]

/-- What holds of the result of a computation that ends by wrapping up another one's. -/
lemma exists_bind_eq_ok {ε α β : Type} {x : Except ε α} {f : α → β} {P : β → Prop} :
    (∃ b, (x >>= fun a => pure (f a)) = .ok b ∧ P b) ↔ ∃ a, x = .ok a ∧ P (f a) := by
  cases x <;> simp [bind, Except.bind, pure, Except.pure]

/-- What a computation returns that is cut short where `c` holds. -/
lemma ite_pure_eq_ok {ε α β : Type} {c : Prop} [Decidable c] {x : Except ε α} {f : α → β} {a b : β} :
    (if c then pure a else x >>= fun y => pure (f y)) = .ok b ↔
      c ∧ a = b ∨ ¬ c ∧ ∃ y, x = .ok y ∧ f y = b := by
  by_cases hc : c
  · simp [hc, pure, Except.pure]
  · simp [hc, except_bind_eq_ok, pure, Except.pure]

/-- What holds of its result, if it holds of the early one. -/
lemma exists_ite_pure_eq_ok {ε α β : Type} {c : Prop} [Decidable c] {x : Except ε α} {f : α → β}
    {a : β} {P : β → Prop} (ha : c → P a) :
    (∃ b, (if c then pure a else x >>= fun y => pure (f y)) = .ok b ∧ P b) ↔
      c ∨ ∃ y, x = .ok y ∧ P (f y) := by
  by_cases hc : c
  · simp [hc, ha hc, pure, Except.pure]
  · simp only [hc, if_false, false_or, exists_bind_eq_ok]

/-- A result that is wrapped up is there exactly if it was there before. -/
lemma except_map_eq_ok {ε α β : Type} {x : Except ε α} {f : α → β} {b : β} :
    x.map f = .ok b ↔ ∃ a, x = .ok a ∧ f a = b := by
  cases x <;> simp [Except.map]

/-- An assertion before the rest of a computation. -/
lemma ite_throw_eq_ok {ε α γ : Type} {c : Prop} [Decidable c] {e : ε} {f : γ → Except ε α}
    {x : Except ε α} {a : α} :
    (if c then throw e >>= f else x) = .ok a ↔ ¬ c ∧ x = .ok a := by
  by_cases hc : c
  · simp [hc, throw, throwThe, MonadExceptOf.throw, bind, Except.bind]
  · simp [hc]

/-- The exception is that of the assertion, or of the rest. -/
lemma ite_throw_eq_error {ε α γ : Type} {c : Prop} [Decidable c] {e e' : ε} {f : γ → Except ε α}
    {x : Except ε α} :
    (if c then throw e >>= f else x) = .error e' ↔ c ∧ e = e' ∨ ¬ c ∧ x = .error e' := by
  by_cases hc : c
  · simp [hc, throw, throwThe, MonadExceptOf.throw, bind, Except.bind]
  · simp [hc]

/-- An assertion at the end of a computation. -/
lemma ite_throw_eq_ok_unit {ε : Type} {c : Prop} [Decidable c] {e : ε} {u : Unit} :
    (if c then throw e else pure ()) = (.ok u : Except ε Unit) ↔ ¬ c := by
  by_cases hc : c
  · simp [hc, throw, throwThe, MonadExceptOf.throw]
  · simp [hc, pure, Except.pure]

/-! ### Computations -/

/-- A computation over the state `σ` that returns an `α` or throws an `ε`. -/
def Exec (σ ε α : Type) : Type := σ → Except ε α × σ

namespace Exec

variable {σ ε α β : Type}

instance : Monad (Exec σ ε) where
  pure a := fun s => (.ok a, s)
  bind x f := fun s =>
    match x s with
    | (.ok a, s') => f a s'
    | (.error e, s') => (.error e, s')

/-- `throw`. -/
def raise (e : ε) : Exec σ ε α := fun s => (.error e, s)

/-- What the state shows. -/
def gets (f : σ → α) : Exec σ ε α := fun s => (.ok (f s), s)

/-- A change of the state. -/
def update (f : σ → σ) : Exec σ ε Unit := fun s => (.ok (), f s)

/-- A result that was computed aside. -/
def ofExcept (r : Except ε α) : Exec σ ε α := fun s => (r, s)

/-- An assertion that throws. -/
def check (c : Prop) [Decidable c] (e : ε) : Exec σ ε Unit := if c then pure () else raise e

/-- `try`/`catch` for the exceptions in `p`. -/
def catchIf (p : ε → Bool) (x : Exec σ ε α) (h : ε → Exec σ ε α) : Exec σ ε α := fun s =>
  match x s with
  | (.ok a, s') => (.ok a, s')
  | (.error e, s') => if p e then h e s' else (.error e, s')

/-- A computation whose exceptions are seen as exceptions of another kind. -/
def liftError {ε' : Type} (g : ε → ε') (x : Exec σ ε α) : Exec σ ε' α := fun s =>
  ((x s).1.mapError g, (x s).2)

/-- A loop over a list. -/
def forEach (f : α → Exec σ ε Unit) : List α → Exec σ ε Unit
  | [] => pure ()
  | a :: l => do
      f a
      forEach f l

/-! ### What a computation does in a given state -/

section Apply

variable {x : Exec σ ε α} {f : α → Exec σ ε β} {s s' s'' : σ} {a : α} {b : β} {e : ε}

@[simp] lemma pure_apply (a : α) (s : σ) : (pure a : Exec σ ε α) s = (.ok a, s) := rfl

@[simp] lemma raise_apply (e : ε) (s : σ) : (raise e : Exec σ ε α) s = (.error e, s) := rfl

@[simp] lemma gets_apply (g : σ → α) (s : σ) : (gets g : Exec σ ε α) s = (.ok (g s), s) := rfl

@[simp] lemma update_apply (g : σ → σ) (s : σ) :
    (update g : Exec σ ε Unit) s = (.ok (), g s) := rfl

@[simp] lemma ofExcept_apply (r : Except ε α) (s : σ) :
    (ofExcept r : Exec σ ε α) s = (r, s) := rfl

lemma check_apply (c : Prop) [Decidable c] (e : ε) (s : σ) :
    (check c e : Exec σ ε Unit) s = (if c then .ok () else .error e, s) := by
  rw [check]
  split_ifs <;> rfl

lemma bind_apply (x : Exec σ ε α) (f : α → Exec σ ε β) (s : σ) :
    (x >>= f) s =
      match x s with
      | (.ok a, s') => f a s'
      | (.error e, s') => (.error e, s') := rfl

lemma bind_assoc {γ : Type} (x : Exec σ ε α) (f : α → Exec σ ε β) (g : β → Exec σ ε γ) :
    x >>= f >>= g = x >>= fun a => f a >>= g := by
  funext s
  rw [bind_apply, bind_apply, bind_apply]
  rcases x s with ⟨_ | a, s'⟩ <;> rfl

lemma bind_pure (x : Exec σ ε α) : x >>= pure = x := by
  funext s
  rw [bind_apply]
  rcases x s with ⟨_ | a, s'⟩ <;> rfl

/-- After a computation that returns comes the rest. -/
lemma bind_ok (h : x s = (.ok a, s')) : (x >>= f) s = f a s' := by rw [bind_apply, h]

/-- After a computation that throws nothing comes. -/
lemma bind_error (h : x s = (.error e, s')) : (x >>= f) s = (.error e, s') := by
  rw [bind_apply, h]

/-- A sequence that does not throw `e` does not begin with what throws it. -/
lemma ne_error_of_bind (h : ((x >>= f) s).1 ≠ .error e) : (x s).1 ≠ .error e := by
  intro he
  rcases hx : x s with ⟨r, s'⟩
  rw [hx] at he
  simp only at he
  subst he
  exact h (congrArg Prod.fst (bind_error hx))

/-- A sequence returns exactly if both parts do. -/
lemma bind_eq_ok : (x >>= f) s = (.ok b, s'') ↔
    ∃ a s', x s = (.ok a, s') ∧ f a s' = (.ok b, s'') := by
  rw [bind_apply]
  rcases x s with ⟨_ | a, s'⟩ <;> simp

/-- A sequence throws exactly if one of its parts does. -/
lemma bind_eq_error : (x >>= f) s = (.error e, s'') ↔
    x s = (.error e, s'') ∨ ∃ a s', x s = (.ok a, s') ∧ f a s' = (.error e, s'') := by
  rw [bind_apply]
  rcases x s with ⟨_ | a, s'⟩ <;> simp

lemma catchIf_ok {p : ε → Bool} {h : ε → Exec σ ε α} (hx : x s = (.ok a, s')) :
    catchIf p x h s = (.ok a, s') := by
  rw [catchIf]
  rw [hx]

lemma catchIf_caught {p : ε → Bool} {h : ε → Exec σ ε α} (hx : x s = (.error e, s'))
    (hp : p e = true) : catchIf p x h s = h e s' := by
  rw [catchIf]
  rw [hx]
  simp [hp]

lemma catchIf_missed {p : ε → Bool} {h : ε → Exec σ ε α} (hx : x s = (.error e, s'))
    (hp : p e = false) : catchIf p x h s = (.error e, s') := by
  rw [catchIf]
  rw [hx]
  simp [hp]

/-- What has returned is behind the handler. -/
lemma catchIf_bind_ok {p : ε → Bool} {h : ε → Exec σ ε β} (hx : x s = (.ok a, s')) :
    catchIf p (x >>= f) h s = catchIf p (f a) h s' := by
  unfold catchIf
  rw [bind_ok hx]

lemma forEach_cons (f : α → Exec σ ε Unit) (a : α) (l : List α) :
    forEach f (a :: l) = f a >>= fun _ => forEach f l := rfl

lemma forEach_append (f : α → Exec σ ε Unit) (l l' : List α) :
    forEach f (l ++ l') = forEach f l >>= fun _ => forEach f l' := by
  induction l with
  | nil => rfl
  | cons a l ih =>
      rw [List.cons_append, forEach_cons, forEach_cons, ih, bind_assoc]

end Apply

/-! ### Triples -/

/-- From a state in `P` the computation ends in `Q` if it returns, and in `E` if it
throws. -/
def Triple (P : σ → Prop) (x : Exec σ ε α) (Q : α → σ → Prop) (E : ε → σ → Prop) : Prop :=
  ∀ s, P s → (∀ a s', x s = (.ok a, s') → Q a s') ∧ ∀ e s', x s = (.error e, s') → E e s'

/-- The computation keeps the invariant if it returns, and ends in `E` if it throws. -/
def Keeps (I : σ → Prop) (E : ε → σ → Prop) (x : Exec σ ε α) : Prop := Triple I x (fun _ => I) E

/-- What every state that a computation leaves has, whether it returns or throws. -/
lemma keeps_of_snd {I : σ → Prop} {x : Exec σ ε α} (h : ∀ s, I s → I (x s).2) :
    Keeps I (fun _ => I) x := by
  intro s hs
  have hleft := h s hs
  refine ⟨fun a s' hx => ?_, fun e s' hx => ?_⟩
  · rwa [hx] at hleft
  · rwa [hx] at hleft

lemma Keeps.snd {I : σ → Prop} {x : Exec σ ε α} (h : Keeps I (fun _ => I) x) {s : σ} (hs : I s) :
    I (x s).2 := by
  obtain ⟨hok, herr⟩ := h s hs
  cases hx : x s with
  | mk r s' =>
      cases r with
      | ok a => exact hok a s' hx
      | error e => exact herr e s' hx

namespace Triple

variable {P P' : σ → Prop} {Q Q' : α → σ → Prop} {E E' : ε → σ → Prop} {R : β → σ → Prop}
  {x : Exec σ ε α} {f : α → Exec σ ε β}

lemma pure {a : α} (h : ∀ s, P s → Q a s) : Triple P (Pure.pure a : Exec σ ε α) Q E := by
  intro s hs
  refine ⟨fun a' s' hx => ?_, fun e s' hx => ?_⟩
  · cases hx; exact h s hs
  · cases hx

lemma raise {e : ε} (h : ∀ s, P s → E e s) : Triple P (Exec.raise e : Exec σ ε α) Q E := by
  intro s hs
  refine ⟨fun a s' hx => ?_, fun e' s' hx => ?_⟩
  · cases hx
  · cases hx; exact h s hs

lemma gets {g : σ → α} (h : ∀ s, P s → Q (g s) s) :
    Triple P (Exec.gets g : Exec σ ε α) Q E := by
  intro s hs
  refine ⟨fun a s' hx => ?_, fun e s' hx => ?_⟩
  · cases hx; exact h s hs
  · cases hx

lemma update {g : σ → σ} {Q : Unit → σ → Prop} (h : ∀ s, P s → Q () (g s)) :
    Triple P (Exec.update g : Exec σ ε Unit) Q E := by
  intro s hs
  refine ⟨fun a s' hx => ?_, fun e s' hx => ?_⟩
  · cases hx; exact h s hs
  · cases hx

lemma check {c : Prop} [Decidable c] {e : ε} {Q : Unit → σ → Prop} (h : ∀ s, P s → c → Q () s)
    (h' : ∀ s, P s → ¬ c → E e s) : Triple P (Exec.check c e : Exec σ ε Unit) Q E := by
  rw [Exec.check]
  split_ifs with hc
  · exact Triple.pure fun s hs => h s hs hc
  · exact Triple.raise fun s hs => h' s hs hc

lemma ofExcept {r : Except ε α} (h : ∀ s a, P s → r = .ok a → Q a s)
    (h' : ∀ s e, P s → r = .error e → E e s) : Triple P (Exec.ofExcept r : Exec σ ε α) Q E := by
  intro s hs
  refine ⟨fun a s' hx => ?_, fun e s' hx => ?_⟩
  · cases hx; exact h s a hs rfl
  · cases hx; exact h' s e hs rfl

/-- The rule of consequence. -/
lemma conseq (h : Triple P' x Q' E') (hP : ∀ s, P s → P' s) (hQ : ∀ a s, Q' a s → Q a s)
    (hE : ∀ e s, E' e s → E e s) : Triple P x Q E := by
  intro s hs
  obtain ⟨hok, herr⟩ := h s (hP s hs)
  exact ⟨fun a s' hx => hQ a s' (hok a s' hx), fun e s' hx => hE e s' (herr e s' hx)⟩

/-- Nothing is asked for. -/
lemma top : Triple P x (fun _ _ => True) fun _ _ => True :=
  fun _ _ => ⟨fun _ _ _ => trivial, fun _ _ _ => trivial⟩

/-- Two triples of one computation. -/
lemma and (h : Triple P x Q E) (h' : Triple P' x Q' E') :
    Triple (fun s => P s ∧ P' s) x (fun a s => Q a s ∧ Q' a s) fun e s => E e s ∧ E' e s := by
  intro s hs
  obtain ⟨hok, herr⟩ := h s hs.1
  obtain ⟨hok', herr'⟩ := h' s hs.2
  exact ⟨fun a s' hx => ⟨hok a s' hx, hok' a s' hx⟩, fun e s' hx => ⟨herr e s' hx, herr' e s' hx⟩⟩

/-- Sequencing. -/
lemma bind (hx : Triple P x Q E) (hf : ∀ a, Triple (Q a) (f a) R E) :
    Triple P (x >>= f) R E := by
  intro s hs
  obtain ⟨hok, herr⟩ := hx s hs
  refine ⟨fun b s'' h => ?_, fun e s'' h => ?_⟩
  · obtain ⟨a, s', ha, hb⟩ := bind_eq_ok.mp h
    exact (hf a s' (hok a s' ha)).1 b s'' hb
  · rcases bind_eq_error.mp h with ha | ⟨a, s', ha, hb⟩
    · exact herr e s'' ha
    · exact (hf a s' (hok a s' ha)).2 e s'' hb

/-- A look at the state. -/
lemma gets_bind {g : σ → α}
    (h : ∀ s, P s → Triple (fun s' => s' = s) (f (g s)) R E) : Triple P (Exec.gets g >>= f) R E :=
  fun s hs => h s hs s rfl

/-- `try`/`catch`. -/
lemma catchIf {p : ε → Bool} {h : ε → Exec σ ε α} (hx : Triple P x Q E')
    (hh : ∀ e, p e = true → Triple (E' e) (h e) Q E) (hE : ∀ e s, p e = false → E' e s → E e s) :
    Triple P (catchIf p x h) Q E := by
  intro s hs
  obtain ⟨hok, herr⟩ := hx s hs
  cases hxs : x s with
  | mk r s' =>
      cases r with
      | ok a =>
          rw [catchIf_ok hxs]
          refine ⟨fun a' s'' heq => ?_, fun e s'' heq => ?_⟩
          · cases heq; exact hok a s' hxs
          · cases heq
      | error e =>
          have he := herr e s' hxs
          cases hp : p e with
          | true =>
              rw [catchIf_caught hxs hp]
              exact hh e hp s' he
          | false =>
              rw [catchIf_missed hxs hp]
              refine ⟨fun a s'' heq => ?_, fun e' s'' heq => ?_⟩
              · cases heq
              · cases heq; exact hE e s' hp he

/-- Exceptions of another kind. -/
lemma liftError {ε' : Type} {E : ε' → σ → Prop} (g : ε → ε')
    (h : Triple P x Q fun e => E (g e)) : Triple P (Exec.liftError g x) Q E := by
  intro s hs
  obtain ⟨hok, herr⟩ := h s hs
  rw [Exec.liftError]
  cases hx : x s with
  | mk r s' =>
      cases r with
      | ok a =>
          refine ⟨fun a' s'' heq => ?_, fun e s'' heq => (by cases heq)⟩
          cases heq
          exact hok a s' hx
      | error e =>
          refine ⟨fun a' s'' heq => (by cases heq), fun e' s'' heq => ?_⟩
          cases heq
          exact herr e s' hx

/-- A branch on a value. -/
lemma ite {c : Prop} [Decidable c] {y : Exec σ ε α} (hx : c → Triple P x Q E)
    (hy : ¬ c → Triple P y Q E) : Triple P (if c then x else y) Q E := by
  split_ifs with hc
  · exact hx hc
  · exact hy hc

/-- A change of the state before the computation, and one after it that knows of the state
before. -/
lemma around {g : σ → σ} {h : σ → σ → σ} (hx : Triple P' x Q' E') (hP : ∀ s, P s → P' (g s))
    (hQ : ∀ s a s', P s → Q' a s' → Q a (h s s')) (hE : ∀ s e s', P s → E' e s' → E e (h s s')) :
    Triple P (fun s => ((x (g s)).1, h s (x (g s)).2)) Q E := by
  intro s hs
  obtain ⟨hok, herr⟩ := hx (g s) (hP s hs)
  refine ⟨fun a s'' heq => ?_, fun e s'' heq => ?_⟩
  · obtain ⟨hr, rfl⟩ := Prod.mk.inj heq
    exact hQ s a _ hs (hok a _ (Prod.ext hr rfl))
  · obtain ⟨hr, rfl⟩ := Prod.mk.inj heq
    exact hE s e _ hs (herr e _ (Prod.ext hr rfl))

/-- A part of the precondition that does not look at the state. -/
lemma of_and {p : Prop} (h : p → Triple P x Q E) : Triple (fun s => p ∧ P s) x Q E :=
  fun s hs => h hs.1 s hs.2

lemma of_and_right {p : Prop} (h : p → Triple P x Q E) : Triple (fun s => P s ∧ p) x Q E :=
  fun s hs => h hs.2 s hs.1

/-- What the computation does in the state is known afterwards. -/
lemma traced {s : σ} (h : Triple (fun s' => s' = s) x Q E) :
    Triple (fun s' => s' = s) x (fun a s' => Q a s' ∧ x s = (.ok a, s'))
      fun e s' => E e s' ∧ x s = (.error e, s') := by
  rintro s rfl
  obtain ⟨hok, herr⟩ := h s rfl
  exact ⟨fun a s' hx => ⟨hok a s' hx, hx⟩, fun e s' hx => ⟨herr e s' hx, hx⟩⟩

/-- A computation that cannot throw returns. -/
lemma exists_ok (h : Triple P x Q fun _ _ => False) {s : σ} (hs : P s) :
    ∃ a s', x s = (.ok a, s') ∧ Q a s' := by
  obtain ⟨hok, herr⟩ := h s hs
  rcases hx : x s with ⟨e | a, s'⟩
  · exact (herr e s' hx).elim
  · exact ⟨a, s', rfl, hok a s' hx⟩

/-- A loop that makes sure of `S` for one element after the other. -/
lemma forEach {I : σ → Prop} {S : α → Prop} {g : α → Exec σ ε Unit} (l : List α)
    (h : ∀ l₁ a l₂, l = l₁ ++ a :: l₂ → (∀ b ∈ l₁, S b) →
      Triple I (g a) (fun _ s => I s ∧ S a) E) :
    Triple I (Exec.forEach g l) (fun _ s => I s ∧ ∀ a ∈ l, S a) E := by
  induction l with
  | nil => exact Triple.pure fun s hs => ⟨hs, by simp⟩
  | cons a l ih =>
      rw [forEach_cons]
      refine Triple.bind (h [] a l rfl (by simp)) fun _ => of_and_right fun ha => ?_
      refine (ih fun l₁ b l₂ hl hS => ?_).conseq (fun _ hs => hs) (fun _ s hs => ⟨hs.1, ?_⟩)
        fun _ _ he => he
      · refine h (a :: l₁) b l₂ (by rw [hl]; rfl) fun c hc => ?_
        rcases List.mem_cons.mp hc with rfl | hc
        · exact ha
        · exact hS c hc
      · intro b hb
        rcases List.mem_cons.mp hb with rfl | hb
        · exact ha
        · exact hs.2 b hb

/-- A value that the precondition gives. -/
lemma of_exists {ι : Type} {F : ι → σ → Prop} (h : ∀ i, Triple (F i) x Q E) :
    Triple (fun s => ∃ i, F i s) x Q E :=
  fun s ⟨i, hs⟩ => h i s hs

end Triple

namespace Keeps

variable {I : σ → Prop} {E : ε → σ → Prop} {x : Exec σ ε α} {f : α → Exec σ ε β}

lemma pure (a : α) : Keeps I E (Pure.pure a : Exec σ ε α) := Triple.pure fun _ h => h

lemma gets (g : σ → α) : Keeps I E (Exec.gets g : Exec σ ε α) := Triple.gets fun _ h => h

lemma update {g : σ → σ} (h : ∀ s, I s → I (g s)) :
    Keeps I E (Exec.update g : Exec σ ε Unit) := Triple.update h

lemma bind (hx : Keeps I E x) (hf : ∀ a, Keeps I E (f a)) : Keeps I E (x >>= f) :=
  Triple.bind hx hf

/-- A loop keeps what its body keeps. -/
lemma forEach {g : α → Exec σ ε Unit} (l : List α) (h : ∀ a ∈ l, Keeps I E (g a)) :
    Keeps I E (forEach g l) := by
  induction l with
  | nil => exact Keeps.pure ()
  | cons a l ih =>
      rw [forEach_cons]
      refine Keeps.bind (h a List.mem_cons_self) fun _ => ?_
      exact ih fun b hb => h b (List.mem_cons_of_mem _ hb)

end Keeps

end Exec

end ZosCore
