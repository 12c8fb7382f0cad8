/-
  Programs that may throw.

  `Async E R ε α` is a promise that resolves to `α` or rejects with `ε`: an effectful program
  whose result is an `Except`.  The rules below follow the two ways such programs are put
  together, `await` (a rejection skips what follows) and `try`/`catch`.
-/
import ReplaysFetcher.Effectful.Rules

namespace Effectful

/-- An effectful program that resolves with `α` or rejects with `ε`. -/
abbrev Async (E : Type) (R : E → Type) (ε α : Type) : Type 1 := ExceptT ε (Proc E R) α

namespace Async

variable {W E : Type} {R : E → Type} {ε α β : Type}

/-- The postcondition "resolved with `ok`, or rejected with `err`". -/
def Outcome (ok : α → W → Prop) (err : ε → W → Prop) : Except ε α → W → Prop
  | .ok a, w => ok a w
  | .error e, w => err e w

/-- A value is judged by the first predicate. -/
@[simp] theorem outcome_ok (ok : α → W → Prop) (err : ε → W → Prop) (a : α) (w : W) :
    Outcome ok err (.ok a) w = ok a w := rfl

/-- An error is judged by the second one. -/
@[simp] theorem outcome_error (ok : α → W → Prop) (err : ε → W → Prop) (e : ε) (w : W) :
    Outcome ok err (.error e) w = err e w := rfl

/-- Two predicates that survive interference make an outcome that does. -/
theorem outcome_stable {rely : W → W → Prop} {ok : α → W → Prop} {err : ε → W → Prop}
    (hok : ∀ a w w', ok a w → rely w w' → ok a w')
    (herr : ∀ e w w', err e w → rely w w' → err e w') (r : Except ε α) (w w' : W)
    (h : Outcome ok err r w) (hr : rely w w') : Outcome ok err r w' := by
  cases r with
  | ok a => exact hok a w w' h hr
  | error e => exact herr e w w' h hr

/-- What follows an awaited program. -/
def onOk (f : α → Async E R ε β) : Except ε α → Proc E R (Except ε β)
  | .ok a => f a
  | .error e => .pure (.error e)

/-- What a `catch` makes of an awaited program. -/
def onError (f : ε → Async E R ε α) : Except ε α → Proc E R (Except ε α)
  | .ok a => .pure (.ok a)
  | .error e => f e

/-- After a value the next part runs. -/
@[simp] theorem onOk_ok (f : α → Async E R ε β) (a : α) : onOk f (.ok a) = f a := rfl

/-- An error skips the next part. -/
@[simp] theorem onOk_error (f : α → Async E R ε β) (e : ε) : onOk f (.error e) = .pure (.error e) :=
  rfl

/-- A value skips the handler. -/
@[simp] theorem onError_ok (f : ε → Async E R ε α) (a : α) : onError f (.ok a) = .pure (.ok a) := rfl

/-- An error is what the handler runs on. -/
@[simp] theorem onError_error (f : ε → Async E R ε α) (e : ε) : onError f (.error e) = f e := rfl

/-- `>>=` goes on with values only. -/
theorem bind_eq (p : Async E R ε α) (f : α → Async E R ε β) :
    (p >>= f : Async E R ε β) = Proc.bind p (onOk f) := by
  change Proc.bind p _ = Proc.bind p _
  congr 1

/-- A program that cannot reject is followed by its result. -/
theorem lift_bind_eq (p : Proc E R α) (f : α → Async E R ε β) :
    ((p : Async E R ε α) >>= f : Async E R ε β) = Proc.bind p f := by
  rw [bind_eq]
  change Proc.bind (Proc.bind p fun a => .pure (.ok a)) (onOk f) = Proc.bind p f
  rw [Proc.bind_assoc']
  rfl

/-- `try … catch` goes on with errors only. -/
theorem tryCatch_eq (p : Async E R ε α) (f : ε → Async E R ε α) :
    (tryCatch p f : Async E R ε α) = Proc.bind p (onError f) := by
  change Proc.bind p _ = Proc.bind p _
  congr 1

/-- One round of a loop that may throw: a rejection leaves the loop. -/
def leave {σ : Type} : Except ε (σ ⊕ β) → σ ⊕ Except ε β
  | .ok (.inl s) => .inl s
  | .ok (.inr b) => .inr (.ok b)
  | .error e => .inr (.error e)

/-- Repeat `body` until it leaves or rejects. -/
def iterate {σ : Type} (body : σ → Async E R ε (σ ⊕ β)) (s : σ) : Async E R ε β :=
  Proc.iterate (fun s => Proc.bind (body s) fun r => .pure (leave r)) s

/-- The leaf of an async program holds a value. -/
theorem pure_eq (a : α) : (pure a : Async E R ε α) = Proc.pure (.ok a) := rfl

section Rules

variable {env : Env W E R} {rely guar : W → W → Prop} {w : W} {post : Except ε β → W → Prop}

/-- `await p`, then `f`; a rejection of `p` must already satisfy the postcondition. -/
theorem safe_bind (ok : α → W → Prop) {p : Async E R ε α} {f : α → Async E R ε β}
    (hp : Proc.Safe env rely guar (Outcome ok fun e w => post (.error e) w) w p)
    (hf : ∀ a w, ok a w → Proc.Safe env rely guar post w (f a)) :
    Proc.Safe env rely guar post w (p >>= f : Async E R ε β) := by
  rw [bind_eq]
  refine Proc.safe_bind hp fun r w hr => ?_
  cases r with
  | ok a => exact hf a w hr.of_pure
  | error e => exact hr.pure_imp fun _ h => h

/-- `await p`, then `f`, when it does not matter how they end. -/
theorem safe_await {P Q : W → Prop} {p : Async E R ε α} {f : α → Async E R ε β}
    (hp : Proc.Safe env rely guar (fun _ => P) w p) (herror : ∀ w, P w → Q w)
    (hf : ∀ a w, P w → Proc.Safe env rely guar (fun _ => Q) w (f a)) :
    Proc.Safe env rely guar (fun _ => Q) w (p >>= f : Async E R ε β) := by
  refine safe_bind (fun _ => P) (hp.imp fun r w h => ?_) hf
  cases r with
  | ok a => exact h
  | error e => exact herror w h

/-- `await p` for a program that cannot reject. -/
theorem safe_lift_bind (mid : α → W → Prop) {p : Proc E R α} {f : α → Async E R ε β}
    (hp : Proc.Safe env rely guar mid w p)
    (hf : ∀ a w, mid a w → Proc.Safe env rely guar post w (f a)) :
    Proc.Safe env rely guar post w ((p : Async E R ε α) >>= f : Async E R ε β) := by
  rw [lift_bind_eq]
  exact Proc.safe_bind_of hp hf

/-- `try p catch f`: the handler starts where `p` rejected. -/
theorem safe_tryCatch (err : ε → W → Prop) {p : Async E R ε β} {f : ε → Async E R ε β}
    (hp : Proc.Safe env rely guar (Outcome (fun b w => post (.ok b) w) err) w p)
    (hf : ∀ e w, err e w → Proc.Safe env rely guar post w (f e)) :
    Proc.Safe env rely guar post w (tryCatch p f : Async E R ε β) := by
  rw [tryCatch_eq]
  refine Proc.safe_bind hp fun r w hr => ?_
  cases r with
  | ok b => exact hr.pure_imp fun _ h => h
  | error e => exact hf e w hr.of_pure

/-- A loop keeps the invariant `Inv` that holds whenever its body is entered. -/
theorem safe_iterate {σ : Type} {body : σ → Async E R ε (σ ⊕ β)} {s : σ} (Inv : σ → W → Prop)
    (hrefl : ∀ w, guar w w) (hstable : ∀ s w w', Inv s w → rely w w' → Inv s w')
    (hpost : ∀ r w w', post r w → rely w w' → post r w')
    (hbody : ∀ s w, Inv s w → Proc.Safe env rely guar
      (Outcome (fun x w => Sum.elim (Inv · w) (fun b => post (.ok b) w) x)
        (fun e w => post (.error e) w)) w (body s))
    (h : Inv s w) : Proc.Safe env rely guar post w (iterate body s) := by
  refine Proc.safe_loop Inv post hrefl hstable (fun s w hs => ?_)
    (fun r w hr => Proc.safe_pure (hpost r) hr) h
  refine Proc.safe_bind (hbody s w hs) fun r w hr => hr.pure_imp fun w hw => ?_
  match r with
  | .ok (.inl _) => exact hw
  | .ok (.inr _) => exact hw
  | .error _ => exact hw

/-- A value may be returned where the postcondition holds and stays. -/
theorem safe_pure {b : β} (hstable : ∀ w w', post (.ok b) w → rely w w' → post (.ok b) w')
    (h : post (.ok b) w) : Proc.Safe env rely guar post w (pure b : Async E R ε β) :=
  Proc.safe_pure hstable h

end Rules

/-! ## Requests -/

section Requests

variable {P : E → Prop}

/-- A composition asks what its parts ask. -/
theorem asks_bind {p : Async E R ε α} {f : α → Async E R ε β} (hp : Proc.Asks P p)
    (hf : ∀ a, Proc.Asks P (f a)) : Proc.Asks P (p >>= f : Async E R ε β) := by
  rw [bind_eq]
  refine hp.bind fun r => ?_
  cases r with
  | ok a => exact hf a
  | error e => trivial

/-- So does one whose first part cannot reject. -/
theorem asks_lift_bind {p : Proc E R α} {f : α → Async E R ε β} (hp : Proc.Asks P p)
    (hf : ∀ a, Proc.Asks P (f a)) :
    Proc.Asks P ((p : Async E R ε α) >>= f : Async E R ε β) := by
  rw [lift_bind_eq]
  exact hp.bind hf

/-- A handled program asks what it and its handler ask. -/
theorem asks_tryCatch {p : Async E R ε α} {f : ε → Async E R ε α} (hp : Proc.Asks P p)
    (hf : ∀ e, Proc.Asks P (f e)) : Proc.Asks P (tryCatch p f : Async E R ε α) := by
  rw [tryCatch_eq]
  refine hp.bind fun r => ?_
  cases r with
  | ok a => trivial
  | error e => exact hf e

/-- A loop asks what its body asks. -/
theorem asks_iterate {σ : Type} {body : σ → Async E R ε (σ ⊕ β)} {s : σ}
    (hbody : ∀ s, Proc.Asks P (body s)) : Proc.Asks P (iterate body s : Async E R ε β) := by
  refine ⟨fun s => (hbody s).bind fun r => trivial, fun _ => trivial⟩

end Requests

end Async

end Effectful
