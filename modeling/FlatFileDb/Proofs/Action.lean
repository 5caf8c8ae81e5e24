import FlatFileDb.Action
import Mathlib.Order.Defs.Unbundled

/-!
# Taking steps apart

What is known of the parts of a step when the whole is known: a sequence that came to a result went
through each of its parts. And what a step does to the state whatever its result: `Within R` says
that the states before and after are related by `R`. For a preorder that is passed on from the parts
to the whole, which is how the frame of every longer step is found. `Alike R` is about two runs of one
step instead: related by `R` before, they come to the same and are related by `R` after.
-/

namespace FlatFileDb

namespace Action

variable {σ τ α β : Type}

theorem of_bind_eq_ok {result : Except Error α} {next : α → Except Error β} {b : β}
    (h : result >>= next = .ok b) : ∃ a, result = .ok a ∧ next a = .ok b := by
  cases result with
  | ok a => exact ⟨a, rfl, h⟩
  | error e => exact absurd h (by simp [bind, Except.bind])

theorem throw_ne_ok {e : Error} {a : α} : (throw e : Except Error α) ≠ .ok a := by
  simp [throw, throwThe, MonadExceptOf.throw]

theorem forM_eq_ok {list : List α} {check : α → Except Error Unit}
    (h : list.forM check = .ok ()) : ∀ a ∈ list, check a = .ok () := by
  induction list with
  | nil => simp
  | cons a list ih =>
    rw [List.forM_eq_forM, List.forM_cons] at h
    obtain ⟨⟨⟩, ha, hlist⟩ := of_bind_eq_ok h
    intro b hb
    rw [List.mem_cons] at hb
    rcases hb with rfl | hb
    · exact ha
    · exact ih hlist b hb

theorem forM_of_forall {list : List α} {check : α → Except Error Unit}
    (h : ∀ a ∈ list, check a = .ok ()) : list.forM check = .ok () := by
  induction list with
  | nil => rfl
  | cons a rest ih =>
    rw [List.forM_eq_forM, List.forM_cons, h a (by simp)]
    exact ih fun b hb => h b (List.mem_cons_of_mem a hb)

/-- What a result failed with. -/
def failure? : Except Error α → Option Error
  | .ok _ => none
  | .error failure => some failure

theorem failure?_eq_none {result : Except Error α} : failure? result = none ↔ ∃ a, result = .ok a := by
  cases result <;> simp [failure?]

theorem failure?_eq_some {result : Except Error α} {failure : Error} :
    failure? result = some failure ↔ result = .error failure := by
  cases result <;> simp [failure?]

theorem failure?_map (f : α → β) (result : Except Error α) :
    failure? (result.map f) = failure? result := by
  cases result <;> rfl

/-- Checks made one after the other fail with the first failure among them. -/
theorem failure?_forM (list : List α) (check : α → Except Error Unit) :
    failure? (list.forM check) = (list.filterMap fun a => failure? (check a)).head? := by
  induction list with
  | nil => rfl
  | cons a rest ih =>
    rw [List.forM_eq_forM, List.forM_cons, List.filterMap_cons]
    cases check a with
    | ok _ => exact ih
    | error failure => rfl

theorem exists_of_forM_eq_error {list : List α} {check : α → Except Error Unit} {failure : Error}
    (h : list.forM check = .error failure) : ∃ a ∈ list, check a = .error failure := by
  have hhead := failure?_forM list check
  rw [failure?_eq_some.2 h] at hhead
  obtain ⟨a, ha, hfailed⟩ := List.mem_filterMap.1 (List.mem_of_head? hhead.symm)
  exact ⟨a, ha, failure?_eq_some.1 hfailed⟩

/-- Where all results are there, they are those of a function. -/
theorem mapM_eq_ok [Inhabited β] {f : α → Except Error β} {list : List α} {found : List β}
    (h : list.mapM f = .ok found) :
    ∃ g : α → β, found = list.map g ∧ ∀ a ∈ list, f a = .ok (g a) := by
  refine ⟨fun a => (f a).toOption.getD default, ?_⟩
  induction list generalizing found with
  | nil => exact ⟨(Except.ok.inj h).symm, by simp⟩
  | cons a rest ih =>
    rw [List.mapM_cons] at h
    obtain ⟨b, hb, h⟩ := of_bind_eq_ok h
    obtain ⟨others, hothers, h⟩ := of_bind_eq_ok h
    obtain ⟨hmap, hall⟩ := ih hothers
    have hgiven : f a = .ok ((f a).toOption.getD default) := by rw [hb]; rfl
    refine ⟨?_, List.forall_mem_cons.2 ⟨hgiven, hall⟩⟩
    rw [← Except.ok.inj h, List.map_cons, ← hmap, hb]
    rfl

theorem mapM_of_exists {f : α → Except Error β} {list : List α} (h : ∀ a ∈ list, ∃ b, f a = .ok b) :
    ∃ found, list.mapM f = .ok found := by
  induction list with
  | nil => exact ⟨[], rfl⟩
  | cons a rest ih =>
    obtain ⟨b, hb⟩ := h a (by simp)
    obtain ⟨found, hfound⟩ := ih fun b hb => h b (List.mem_cons_of_mem _ hb)
    exact ⟨b :: found, by rw [List.mapM_cons, hb, hfound]; rfl⟩

theorem mapM_of_forall {f : α → Except Error β} {g : α → β} {list : List α}
    (h : ∀ a ∈ list, f a = .ok (g a)) : list.mapM f = .ok (list.map g) := by
  induction list with
  | nil => rfl
  | cons a rest ih =>
    rw [List.mapM_cons, h a (by simp), ih fun b hb => h b (List.mem_cons_of_mem _ hb)]
    rfl

@[simp] theorem read_apply (f : σ → Except Error α) (s : σ) : read f s = (f s, s) := rfl

@[simp] theorem ofExcept_apply (result : Except Error α) (s : σ) :
    ofExcept result s = (result, s) := rfl

theorem ofResult_apply (result : Except Error α) (s : σ) :
    (MonadExcept.ofExcept result : Action σ α) s = (result, s) := by
  cases result <;> rfl

theorem onPart_apply (part : σ → τ) (put : τ → σ → σ) (step : Action τ α) (s : σ) :
    onPart part put step s = ((step (part s)).1, put (step (part s)).2 s) := rfl

theorem bind_of_ok {step : Action σ α} {next : α → Action σ β} {s s' : σ} {a : α}
    (h : step s = (.ok a, s')) : (step >>= next) s = next a s' := by
  rw [bind_apply, h]

/-- A loop goes on behind an item that is done. -/
theorem forM_cons_of_ok {step : α → Action σ Unit} {a : α} {s s' : σ} (h : step a s = (.ok (), s'))
    (rest : List α) : (a :: rest).forM step s = rest.forM step s' := by
  rw [List.forM_eq_forM, List.forM_cons, bind_of_ok h]

theorem bind_of_error {step : Action σ α} {next : α → Action σ β} {s s' : σ} {e : Error}
    (h : step s = (.error e, s')) : (step >>= next) s = (.error e, s') := by
  rw [bind_apply, h]

theorem tryCatch_apply (step : Action σ α) (handle : Error → Action σ α) (s : σ) :
    (tryCatch step handle : Action σ α) s
      = match step s with
        | (.ok a, s) => (.ok a, s)
        | (.error e, s) => handle e s := rfl

theorem tryCatch_of_ok {step : Action σ α} {handle : Error → Action σ α} {s s' : σ} {a : α}
    (h : step s = (.ok a, s')) : (tryCatch step handle : Action σ α) s = (.ok a, s') := by
  rw [tryCatch_apply, h]

theorem tryCatch_of_error {step : Action σ α} {handle : Error → Action σ α} {s s' : σ} {e : Error}
    (h : step s = (.error e, s')) : (tryCatch step handle : Action σ α) s = handle e s' := by
  rw [tryCatch_apply, h]

@[simp] theorem get_bind (next : σ → Action σ β) (s : σ) : (get >>= next) s = next s s := rfl

theorem ofExcept_bind (result : Except Error α) (next : α → Action σ β) (s : σ) :
    (ofExcept result >>= next) s
      = match result with
        | .ok a => next a s
        | .error e => (.error e, s) := by
  cases result <;> rfl

theorem read_bind (f : σ → Except Error α) (next : α → Action σ β) (s : σ) :
    (read f >>= next) s
      = match f s with
        | .ok a => next a s
        | .error e => (.error e, s) := by
  rw [bind_apply, read_apply]
  cases f s <;> rfl

/-- A sequence failed in its first part, or its first part came to a result. -/
theorem bind_cases {step : Action σ α} {next : α → Action σ β} {s s' : σ} {r : Except Error β}
    (h : (step >>= next) s = (r, s')) :
    (∃ e, step s = (.error e, s') ∧ r = .error e) ∨
      ∃ a s₁, step s = (.ok a, s₁) ∧ next a s₁ = (r, s') := by
  rw [bind_apply] at h
  cases hstep : step s with
  | mk result s₁ =>
    rw [hstep] at h
    cases result with
    | ok a => exact .inr ⟨a, s₁, rfl, h⟩
    | error e =>
      simp only [Prod.mk.injEq] at h
      exact .inl ⟨e, by rw [h.2], h.1.symm⟩

theorem map_apply (f : α → β) (step : Action σ α) (s : σ) :
    (f <$> step) s = ((step s).1.map f, (step s).2) := by
  change (step >>= fun a => pure (f a)) s = _
  rw [bind_apply]
  cases step s with
  | mk result s' => cases result <;> rfl

theorem id_map_step (step : Action σ α) : id <$> step = step := by
  funext s
  rw [map_apply]
  cases step s with
  | mk result s' => cases result <;> rfl

theorem bind_assoc_step (step : Action σ α) (next : α → Action σ β) {γ : Type}
    (more : β → Action σ γ) : step >>= next >>= more = step >>= fun a => next a >>= more := by
  funext s
  simp only [bind_apply]
  cases step s with
  | mk result s' => cases result <;> rfl

instance : LawfulMonad (Action σ) :=
  LawfulMonad.mk' (Action σ) id_map_step (fun _ _ => rfl)
    fun step next more => bind_assoc_step step next more

/-! ### What a step does to the state -/

/-- Whatever a step comes to, it takes a state to one related to it. -/
def Within (R : σ → σ → Prop) (step : Action σ α) : Prop :=
  ∀ s, R s (step s).2

namespace Within

variable {R : σ → σ → Prop}

theorem mono {R' : σ → σ → Prop} {step : Action σ α} (h : Within R step)
    (hle : ∀ s s', R s s' → R' s s') : Within R' step :=
  fun s => hle _ _ (h s)

theorem after {step : Action σ α} (h : Within R step) {s s' : σ} {result : Except Error α}
    (hstep : step s = (result, s')) : R s s' := by
  have hs := h s
  rw [hstep] at hs
  exact hs

theorem attempt {step : Action σ α} (h : Within R step) : Within R (attempt step) :=
  h

theorem ite {p : Prop} [Decidable p] {yes no : Action σ α} (hyes : p → Within R yes)
    (hno : ¬p → Within R no) : Within R (if p then yes else no) := by
  by_cases h : p
  · rw [if_pos h]
    exact hyes h
  · rw [if_neg h]
    exact hno h

section Preorder

variable [IsPreorder σ R]

theorem pure (a : α) : Within R (pure a : Action σ α) :=
  fun s => refl s

theorem throw (e : Error) : Within R (throw e : Action σ α) :=
  fun s => refl s

theorem get : Within R (get : Action σ σ) :=
  fun s => refl s

theorem read (f : σ → Except Error α) : Within R (read f) :=
  fun s => refl s

theorem ofExcept (result : Except Error α) : Within R (ofExcept result : Action σ α) :=
  fun s => refl s

theorem bind {step : Action σ α} {next : α → Action σ β} (h : Within R step)
    (hnext : ∀ a, Within R (next a)) : Within R (step >>= next) := by
  intro s
  have hstep := h s
  cases hcase : step s with
  | mk result s₁ =>
    rw [hcase] at hstep
    cases result with
    | ok a =>
      rw [bind_of_ok hcase]
      exact IsTrans.trans _ _ _ hstep (hnext a s₁)
    | error e =>
      rw [bind_of_error hcase]
      exact hstep

/-- What comes behind a result may count on it. -/
theorem ofExcept_bind {result : Except Error α} {next : α → Action σ β}
    (hnext : ∀ a, result = .ok a → Within R (next a)) :
    Within R (Action.ofExcept result >>= next) := by
  cases result with
  | ok a => exact hnext a rfl
  | error e => exact throw e

theorem forM {list : List α} {step : α → Action σ Unit} (h : ∀ a ∈ list, Within R (step a)) :
    Within R (list.forM step) := by
  induction list with
  | nil => exact pure _
  | cons a list ih =>
    rw [List.forM_eq_forM, List.forM_cons]
    refine bind (h a (by simp)) fun _ => ih fun b hb => h b (by simp [hb])

end Preorder

end Within

/-! ### What a step does in two states -/

/-- In related states a step comes to the same result, and it leaves related states behind. -/
def Alike (R : σ → σ → Prop) (step : Action σ α) : Prop :=
  ∀ s s', R s s' → (step s').1 = (step s).1 ∧ R (step s).2 (step s').2

namespace Alike

variable {R : σ → σ → Prop}

theorem pure (a : α) : Alike R (pure a : Action σ α) :=
  fun _ _ h => ⟨rfl, h⟩

theorem throw (e : Error) : Alike R (throw e : Action σ α) :=
  fun _ _ h => ⟨rfl, h⟩

theorem ofExcept (result : Except Error α) : Alike R (ofExcept result : Action σ α) :=
  fun _ _ h => ⟨rfl, h⟩

theorem ofResult (result : Except Error α) :
    Alike R (MonadExcept.ofExcept result : Action σ α) := by
  cases result with
  | ok a => exact pure a
  | error e => exact throw e

theorem read {f : σ → Except Error α} (h : ∀ s s', R s s' → f s' = f s) : Alike R (read f) :=
  fun s s' hs => ⟨h s s' hs, hs⟩

theorem modify {f : σ → σ} (h : ∀ s s', R s s' → R (f s) (f s')) : Alike R (modify f) :=
  fun s s' hs => ⟨rfl, h s s' hs⟩

theorem bind {step : Action σ α} {next : α → Action σ β} (h : Alike R step)
    (hnext : ∀ a, Alike R (next a)) : Alike R (step >>= next) := by
  intro s s' hs
  obtain ⟨hresult, hafter⟩ := h s s' hs
  rw [bind_apply, bind_apply]
  cases hfirst : step s with
  | mk result s₁ =>
  cases hsecond : step s' with
  | mk result' s₁' =>
  rw [hfirst, hsecond] at hresult hafter
  obtain rfl : result' = result := hresult
  cases result' with
  | error e => exact ⟨rfl, hafter⟩
  | ok a => exact hnext a s₁ s₁' hafter

theorem map {step : Action σ α} (f : α → β) (h : Alike R step) : Alike R (f <$> step) :=
  h.bind fun a => pure (f a)

/-- What comes behind a look at the whole state may use what related states agree on. -/
theorem get {next : σ → Action σ β} (hsame : ∀ s s', R s s' → next s' = next s)
    (hnext : ∀ s, Alike R (next s)) : Alike R (get >>= next) := by
  intro s s' hs
  rw [get_bind, get_bind, hsame s s' hs]
  exact hnext s s s' hs

theorem ite {p : Prop} [Decidable p] {yes no : Action σ α} (hyes : Alike R yes)
    (hno : Alike R no) : Alike R (if p then yes else no) := by
  by_cases h : p
  · rw [if_pos h]
    exact hyes
  · rw [if_neg h]
    exact hno

theorem forM {list : List α} {step : α → Action σ Unit} (h : ∀ a ∈ list, Alike R (step a)) :
    Alike R (list.forM step) := by
  induction list with
  | nil => exact pure ()
  | cons a list ih =>
    rw [List.forM_eq_forM, List.forM_cons]
    exact bind (h a (by simp)) fun _ => ih fun b hb => h b (by simp [hb])

theorem mapM {list : List α} {step : α → Action σ β} (h : ∀ a, Alike R (step a)) :
    Alike R (list.mapM step) := by
  induction list with
  | nil => exact pure []
  | cons a list ih =>
    rw [List.mapM_cons]
    exact bind (h a) fun b => bind ih fun rest => pure (b :: rest)

theorem attempt {step : Action σ α} (h : Alike R step) : Alike R (attempt step) :=
  fun s s' hs => ⟨rfl, (h s s' hs).2⟩

/-- Where only the states count, so they do behind a step that comes to the same. -/
theorem attempt_bind {step : Action σ α} {next : α → Action σ β} (h : Alike R step)
    (hnext : ∀ a, Alike R (Action.attempt (next a))) : Alike R (Action.attempt (step >>= next)) := by
  have hseq : Action.attempt (step >>= next)
      = Action.attempt (step >>= fun a => Action.attempt (next a)) := by
    funext s
    refine congrArg (Prod.mk _) ?_
    rw [bind_apply, bind_apply]
    cases step s with
    | mk result s₁ => cases result <;> rfl
  rw [hseq]
  exact attempt (h.bind hnext)

theorem tryCatch {step : Action σ α} {handle : Error → Action σ α} (h : Alike R step)
    (hhandle : ∀ e, Alike R (handle e)) : Alike R (tryCatch step handle : Action σ α) := by
  intro s s' hs
  obtain ⟨hresult, hafter⟩ := h s s' hs
  rw [tryCatch_apply, tryCatch_apply]
  cases hfirst : step s with
  | mk result s₁ =>
  cases hsecond : step s' with
  | mk result' s₁' =>
  rw [hfirst, hsecond] at hresult hafter
  obtain rfl : result' = result := hresult
  cases result' with
  | ok a => exact ⟨rfl, hafter⟩
  | error e => exact hhandle e s₁ s₁' hafter

end Alike

end Action

end FlatFileDb
