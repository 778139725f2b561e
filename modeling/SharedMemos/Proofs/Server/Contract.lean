import SharedMemos.Proofs.Server.Holdings

/-!
# Contracts of attempts

A contract says what holds after an attempt if something holds before: one thing about the result if
it succeeds, and an invariant, the same for all parts of a request, if it fails. Contracts of the
parts give the contract of a sequence (`Upholds.bind`), and so a request is gone through once, with
its failures.

Names are drawn at random, and whatever relies on them not coming again can only do so for a limited
number of draws. A contract holds as long as no more than `last` names have been drawn when the
attempt ends. Since it also says that no draw is ever taken back, the limit need not be looked at
again in between.

## Main definitions

* `Attempt.Upholds` — the contract of an attempt
* `IsStable` — assertions that steps which find something out cannot break

## Main results

* `Attempt.Upholds.bind` — contracts compose
* `Attempt.Upholds.of_within`, `Attempt.Upholds.quiet` — contracts of steps
-/

namespace SharedMemos.Server

/-! ### Stable assertions -/

/-- Quiet steps do not break the assertion. -/
def IsStable (p : State → Prop) : Prop :=
  ∀ s t, Footprint.quiet.rel s t → p s → p t

theorem IsStable.and {p q : State → Prop} (hp : IsStable p) (hq : IsStable q) :
    IsStable fun s => p s ∧ q s :=
  fun s t hquiet h => ⟨hp s t hquiet h.1, hq s t hquiet h.2⟩

/-- What is said about the holdings only is stable. -/
theorem IsStable.of_holdings (p : Holdings → Prop) : IsStable fun s => p s.holdings := by
  intro s t hquiet h
  rw [hquiet.1]
  exact h

namespace Attempt

variable {α β : Type} {last : Nat} {inv pre pre' : State → Prop} {a : Action α}
  {f : α → Action β} {mid post post' : α → State → Prop} {final : β → State → Prop}

/-- What is to hold at the end: one thing after a success, another after a failure. -/
def Ends (inv : State → Prop) (post : α → State → Prop) : Except Error α × State → Prop
  | (.ok x, t) => post x t
  | (.error _, t) => inv t

theorem Ends.imp {r : Except Error α × State} (h : Ends inv post r)
    (hpost : ∀ x, post x r.2 → post' x r.2) : Ends inv post' r := by
  rcases r with ⟨e | x, t⟩
  · exact h
  · exact hpost x h

/-- What is to hold in any case holds. -/
theorem Ends.always {r : Except Error α × State} (h : Ends inv (fun _ => inv) r) : inv r.2 := by
  rcases r with ⟨e | x, t⟩
  · exact h
  · exact h

/-- The contract of an attempt, as long as no more than `last` names have been drawn. -/
def Upholds (last : Nat) (inv pre : State → Prop) (a : Action α) (post : α → State → Prop) : Prop :=
  ∀ s, s.draws ≤ (a.exec s).2.draws ∧ ((a.exec s).2.draws ≤ last → pre s → Ends inv post (a.exec s))

namespace Upholds

/-- A contract of an attempt with a footprint that takes no draw back. -/
theorem of_within {F : Footprint State} (h : a.Within F)
    (hdraws : ∀ s t, F.rel s t → s.draws ≤ t.draws)
    (hok : ∀ s x t, a.exec s = (.ok x, t) → F.rel s t → t.draws ≤ last → pre s → post x t)
    (herror : ∀ s t, F.rel s t → t.draws ≤ last → pre s → inv t) :
    a.Upholds last inv pre post := by
  intro s
  have hrel := h s
  refine ⟨hdraws _ _ hrel, ?_⟩
  rcases hexec : a.exec s with ⟨e | x, t⟩
  · rw [hexec] at hrel
    exact herror s t hrel
  · rw [hexec] at hrel
    exact hok s x t hexec hrel

/-- A quiet step keeps what is stable. -/
theorem quiet (h : IsQuiet a) (hpre : IsStable pre) (hinv : ∀ s, pre s → inv s) :
    a.Upholds last inv pre fun _ => pre :=
  of_within h (fun _ _ hquiet => hquiet.2) (fun s _ t _ hquiet _ => hpre s t hquiet)
    fun s t hquiet _ hs => hinv t (hpre s t hquiet hs)

/-- A quiet step keeps what is stable, and its result is as it says. -/
theorem quiet_spec (h : IsQuiet a) (hpre : IsStable pre) (hinv : ∀ s, pre s → inv s)
    (hspec : ∀ s x t, a.exec s = (.ok x, t) → t.draws ≤ last → pre s → post x t) :
    a.Upholds last inv pre fun x s => pre s ∧ post x s :=
  of_within h (fun _ _ hquiet => hquiet.2)
    (fun s x t hexec hquiet hlast hs => ⟨hpre s t hquiet hs, hspec s x t hexec hlast hs⟩)
    fun s t hquiet _ hs => hinv t (hpre s t hquiet hs)

/-- Looking something up tells how the database is. -/
theorem query (g : Database → α) :
    (Server.query g).Upholds last inv pre fun x s => pre s ∧ x = g s.database :=
  fun _ => ⟨Nat.le_refl _, fun _ hs => ⟨hs, rfl⟩⟩

/-- A transaction fails as a whole, and otherwise changes the database only. -/
theorem transact {x : Transaction α} (hinv : ∀ s, pre s → inv s)
    (hspec : ∀ s y d, x.run s.database = .ok (y, d) → pre s → post y { s with database := d }) :
    (Server.transact x).Upholds last inv pre post := by
  intro s
  rcases hexec : (Server.transact x).exec s with ⟨e | y, t⟩
  · obtain ⟨-, rfl⟩ := exec_transact_error hexec
    exact ⟨Nat.le_refl _, fun _ hs => hinv _ hs⟩
  · obtain ⟨d, hrun, rfl⟩ := exec_transact_ok hexec
    exact ⟨Nat.le_refl _, fun _ hs => hspec s y d hrun hs⟩

theorem pure {x : α} (h : ∀ s, pre s → post x s) :
    (Pure.pure x : Action α).Upholds last inv pre post :=
  fun s => ⟨Nat.le_refl _, fun _ => h s⟩

theorem throw {e : Error} (h : ∀ s, pre s → inv s) :
    (MonadExcept.throw e : Action α).Upholds last inv pre post :=
  fun s => ⟨Nat.le_refl _, fun _ => h s⟩

theorem throw_bind {e : Error} (h : ∀ s, pre s → inv s) :
    (MonadExcept.throw e >>= f : Action β).Upholds last inv pre final :=
  fun s => ⟨Nat.le_refl _, fun _ => h s⟩

/-- **Contracts compose.** -/
theorem bind (ha : a.Upholds last inv pre mid) (hf : ∀ x, (f x).Upholds last inv (mid x) final) :
    (a >>= f).Upholds last inv pre final := by
  intro s
  obtain ⟨hdraws, hspec⟩ := ha s
  rw [exec_bind]
  rcases h : a.exec s with ⟨e | x, t⟩
  · rw [h] at hdraws hspec
    exact ⟨hdraws, hspec⟩
  · rw [h] at hdraws hspec
    obtain ⟨hdraws', hspec'⟩ := hf x t
    exact ⟨Nat.le_trans hdraws hdraws', fun hlast hs =>
      hspec' hlast (hspec (Nat.le_trans hdraws' hlast) hs)⟩

/-- An outcome that is known is either a failure, or a result that the rest may rely on. -/
theorem ofExcept_bind {r : Except Error α} (hinv : ∀ s, pre s → inv s)
    (hf : ∀ x, r = .ok x → (f x).Upholds last inv pre final) :
    (Attempt.ofExcept r >>= f : Action β).Upholds last inv pre final := by
  cases r with
  | error e => exact throw_bind hinv
  | ok x => exact hf x rfl

/-- More may be known before, and less wanted after. -/
theorem weaken (h : a.Upholds last inv pre post) (hpre : ∀ s, pre' s → pre s)
    (hpost : ∀ x s, post x s → post' x s) : a.Upholds last inv pre' post' := by
  intro s
  obtain ⟨hdraws, hspec⟩ := h s
  exact ⟨hdraws, fun hlast hs => (hspec hlast (hpre s hs)).imp fun x => hpost x _⟩

theorem weaken_pre (h : a.Upholds last inv pre post) (hpre : ∀ s, pre' s → pre s) :
    a.Upholds last inv pre' post :=
  h.weaken hpre fun _ _ hpost => hpost

/-- A failure may leave less. -/
theorem weaken_inv {inv' : State → Prop} (h : a.Upholds last inv' pre post)
    (hinv : ∀ s, inv' s → inv s) : a.Upholds last inv pre post := by
  intro s
  obtain ⟨hdraws, hspec⟩ := h s
  refine ⟨hdraws, fun hlast hs => ?_⟩
  have hends := hspec hlast hs
  rcases hexec : a.exec s with ⟨e | x, t⟩
  · rw [hexec] at hends
    exact hinv t hends
  · rw [hexec] at hends
    exact hends

/-- What does not depend on the state stays as it is. -/
theorem frame (φ : Prop) (h : a.Upholds last inv pre post) :
    a.Upholds last inv (fun s => φ ∧ pre s) fun x s => φ ∧ post x s := by
  intro s
  obtain ⟨hdraws, hspec⟩ := h s
  exact ⟨hdraws, fun hlast ⟨hφ, hs⟩ => (hspec hlast hs).imp fun x hpost => ⟨hφ, hpost⟩⟩

/-- What a footprint cannot break stays true. -/
theorem and_within {F : Footprint State} {q : State → Prop} (h : a.Upholds last inv pre post)
    (ha : a.Within F) (hq : ∀ s t, F.rel s t → q s → q t) :
    a.Upholds last inv (fun s => pre s ∧ q s) fun x s => post x s ∧ q s := by
  intro s
  obtain ⟨hdraws, hspec⟩ := h s
  refine ⟨hdraws, fun hlast ⟨hs, hqs⟩ => ?_⟩
  have hqt := hq _ _ (ha s) hqs
  exact (hspec hlast hs).imp fun x hpost => ⟨hpost, hqt⟩

/-- After an attempt whose failure is taken as a value, one of the two holds. -/
theorem outcome (h : a.Upholds last inv pre post) :
    a.outcome.Upholds last inv pre fun r s => Ends inv post (r, s) := by
  intro s
  rw [exec_outcome]
  exact h s

/-- If an attempt leaves the invariant in any case, nobody has to ask how it ended. -/
theorem outcome_inv (h : a.Upholds last inv pre fun _ => inv) :
    a.outcome.Upholds last inv pre fun _ => inv :=
  h.outcome.weaken (fun _ hs => hs) fun _ _ => Ends.always

/-- An attempt whose failure is passed over leaves the invariant. -/
theorem tolerate (h : a.Upholds last inv pre fun _ => inv) :
    a.tolerate.Upholds last inv pre fun _ => inv :=
  h.outcome_inv.bind fun _ => .pure fun _ hs => hs

/-- What each of several attempts keeps, all of them keep. -/
theorem forM {ι : Type} {items : List ι} {g : ι → Action Unit}
    (h : ∀ x ∈ items, (g x).Upholds last inv pre fun _ => pre) :
    (items.forM g).Upholds last inv pre fun _ => pre := by
  induction items with
  | nil => exact .pure fun _ hs => hs
  | cons x items ih =>
    obtain ⟨hx, hitems⟩ := List.forall_mem_cons.mp h
    exact .bind hx fun _ => ih hitems

theorem foldlM {ι : Type} {items : List ι} {g : β → ι → Action β}
    (h : ∀ y, ∀ x ∈ items, (g y x).Upholds last inv pre fun _ => pre) (y : β) :
    (items.foldlM g y).Upholds last inv pre fun _ => pre := by
  induction items generalizing y with
  | nil => exact .pure fun _ hs => hs
  | cons x items ih =>
    rw [List.foldlM_cons]
    exact .bind (h y x List.mem_cons_self) fun z =>
      ih (fun y x hx => h y x (List.mem_cons_of_mem _ hx)) z

end Upholds

end Attempt

end SharedMemos.Server
