import Mathlib.Data.List.Forall2

/-!
Folds that stop at the first fault. Often what is wrong with an element does not depend on what the
elements before it have left behind. Then the faults of the fold are those of a plain check of the
elements in order, and its result is known from an invariant (`foldlM_checkedBy`). `FaultsOnly`
speaks of the faults of one run, `verdict` is all that is left of a run when its result is dropped, and
`FirstFault` is the fault at which a run over a list ends.
-/

namespace SqlTemplate

variable {ε σ α : Type}

/-- The run fails where the check fails, with the same error, and ends well where the check does. -/
def CheckedBy (check : Except ε Unit) (post : σ → Prop) (run : Except ε σ) : Prop :=
  match check with
  | .error e => run = .error e
  | .ok _ => ∃ s, run = .ok s ∧ post s

namespace CheckedBy

variable {check : Except ε Unit} {post : σ → Prop} {run : Except ε σ}

theorem error_iff (h : CheckedBy check post run) {e : ε} :
    run = .error e ↔ check = .error e := by
  cases check with
  | error e' => simp [show run = .error e' from h, eq_comm]
  | ok _ =>
    obtain ⟨s, hrun, -⟩ := h
    simp [hrun]

theorem check_eq_ok (h : CheckedBy check post run) {s : σ} (hrun : run = .ok s) :
    check = .ok () ∧ post s := by
  cases check with
  | error e => cases hrun.symm.trans h
  | ok _ =>
    obtain ⟨s', hrun', hpost⟩ := h
    cases hrun.symm.trans hrun'
    exact ⟨rfl, hpost⟩

theorem exists_ok (h : CheckedBy check post run) (hcheck : check = .ok ()) :
    ∃ s, run = .ok s ∧ post s := by
  subst hcheck
  exact h

theorem imp {post' : σ → Prop} (h : CheckedBy check post run) (himp : ∀ s, post s → post' s) :
    CheckedBy check post' run := by
  cases check with
  | error e => exact h
  | ok _ =>
    obtain ⟨s, hrun, hpost⟩ := h
    exact ⟨s, hrun, himp s hpost⟩

/-- Runs with one check are equal if what is known of their results allows no difference. -/
theorem eq_of_unique {post' : σ → Prop} {run' : Except ε σ} (h : CheckedBy check post run)
    (h' : CheckedBy check post' run') (hunique : ∀ s s', post s → post' s' → s = s') :
    run = run' := by
  cases check with
  | error e => exact h.trans (Eq.symm h')
  | ok _ =>
    obtain ⟨s, rfl, hs⟩ := h
    obtain ⟨s', rfl, hs'⟩ := h'
    rw [hunique s s' hs hs']

theorem seq {τ : Type} {check' : Except ε Unit} {post' : τ → Prop} {next : σ → Except ε τ}
    (h : CheckedBy check post run) (hnext : ∀ s, post s → CheckedBy check' post' (next s)) :
    CheckedBy (check >>= fun _ => check') post' (run >>= next) := by
  cases check with
  | error e =>
    rw [show run = .error e from h]
    rfl
  | ok _ =>
    obtain ⟨s, rfl, hpost⟩ := h
    exact hnext s hpost

theorem bind {τ : Type} {post' : τ → Prop} {next : σ → Except ε τ} (h : CheckedBy check post run)
    (hnext : ∀ s, post s → ∃ s', next s = .ok s' ∧ post' s') :
    CheckedBy check post' (run >>= next) := by
  have hseq : CheckedBy (check >>= fun _ => .ok ()) post' (run >>= next) := h.seq hnext
  cases check with
  | error e => exact hseq
  | ok _ => exact hseq

/-- A run is checked by what it does itself when its result is dropped. -/
theorem self (run : Except ε σ) : CheckedBy (run.map fun _ => ()) (run = .ok ·) run := by
  cases run with
  | error e => rfl
  | ok s => exact ⟨s, rfl, rfl⟩

theorem guarded (guard : Except ε Unit) (h : CheckedBy check post run) :
    CheckedBy (guard >>= fun _ => check) post (guard >>= fun _ => run) := by
  cases guard with
  | error e => rfl
  | ok _ => exact h

end CheckedBy

theorem seq_eq_ok_iff {first : Except ε Unit} {next : Except ε α} {a : α} :
    (first >>= fun _ => next) = .ok a ↔ first = .ok () ∧ next = .ok a := by
  cases first <;> simp [Bind.bind, Except.bind]

theorem bind_eq_ok_iff {β : Type} {run : Except ε α} {next : α → Except ε β} {b : β} :
    (run >>= next) = .ok b ↔ ∃ a, run = .ok a ∧ next a = .ok b := by
  cases run <;> simp [Bind.bind, Except.bind]

theorem map_eq_ok_iff {β : Type} {f : α → β} {run : Except ε α} {b : β} :
    run.map f = .ok b ↔ ∃ a, run = .ok a ∧ f a = b := by
  cases run <;> simp [Except.map]

theorem drop_eq_ok_iff {run : Except ε α} :
    (run.map fun _ => ()) = .ok () ↔ ∃ a, run = .ok a := by
  simp [map_eq_ok_iff]

theorem forM_eq_ok_iff {check : α → Except ε Unit} {l : List α} :
    l.forM check = .ok () ↔ ∀ a ∈ l, check a = .ok () := by
  induction l with
  | nil => simp [pure, Except.pure]
  | cons a l ih =>
    rw [List.forM_eq_forM] at ih ⊢
    cases hcheck : check a with
    | error e => simp [hcheck, bind, Except.bind]
    | ok _ => simpa [hcheck, bind, Except.bind] using ih

theorem mapM_eq_ok_iff {β : Type} {f : α → Except ε β} {l : List α} {l' : List β} :
    l.mapM f = .ok l' ↔ List.Forall₂ (fun a b => f a = .ok b) l l' := by
  induction l generalizing l' with
  | nil => simp [pure, Except.pure, eq_comm]
  | cons a l ih =>
    rw [List.mapM_cons, List.forall₂_cons_left_iff]
    cases hf : f a with
    | error e => simp [bind, Except.bind]
    | ok b =>
      cases hl : l.mapM f with
      | error e => simp [bind, Except.bind, ← ih, hl]
      | ok bs => simp [bind, Except.bind, pure, Except.pure, ← ih, hl, eq_comm]

theorem exists_mem_of_forall₂ {β : Type} {r : α → β → Prop} {l : List α} {l' : List β}
    (h : List.Forall₂ r l l') {b : β} (hb : b ∈ l') : ∃ a ∈ l, r a b := by
  induction h with
  | nil => cases hb
  | @cons a b' l l' hr _ ih =>
    obtain rfl | hb := List.mem_cons.mp hb
    · exact ⟨a, List.mem_cons_self, hr⟩
    · obtain ⟨a', ha', hr'⟩ := ih hb
      exact ⟨a', List.mem_cons_of_mem a ha', hr'⟩

theorem exists_of_mem_mapM {β : Type} {f : α → Except ε β} {l : List α} {l' : List β}
    (h : l.mapM f = .ok l') {b : β} (hb : b ∈ l') : ∃ a ∈ l, f a = .ok b :=
  exists_mem_of_forall₂ (mapM_eq_ok_iff.mp h) hb

theorem exists_mapM_eq_ok_iff {β : Type} {f : α → Except ε β} {l : List α} :
    (∃ l', l.mapM f = .ok l') ↔ ∀ a ∈ l, ∃ b, f a = .ok b := by
  simp only [mapM_eq_ok_iff]
  induction l with
  | nil => simp
  | cons a l ih =>
    rw [List.forall_mem_cons, ← ih]
    constructor
    · rintro ⟨_, h⟩
      obtain ⟨b, l', hb, hl', -⟩ := List.forall₂_cons_left_iff.mp h
      exact ⟨⟨b, hb⟩, l', hl'⟩
    · rintro ⟨⟨b, hb⟩, l', hl'⟩
      exact ⟨b :: l', .cons hb hl'⟩

theorem mapM_congr {β : Type} {f g : α → Except ε β} {l : List α} (h : ∀ a ∈ l, f a = g a) :
    l.mapM f = l.mapM g := by
  induction l with
  | nil => rfl
  | cons a l ih =>
    obtain ⟨ha, hl⟩ := List.forall_mem_cons.mp h
    rw [List.mapM_cons, List.mapM_cons, ha, ih hl]

/-- Elements in pairs on which the two runs agree. -/
theorem mapM_congr_forall₂ {β γ : Type} {f : α → Except ε γ} {g : β → Except ε γ} {l : List α}
    {l' : List β} (h : List.Forall₂ (fun a b => f a = g b) l l') : l.mapM f = l'.mapM g := by
  induction h with
  | nil => rfl
  | cons hab _ ih => rw [List.mapM_cons, List.mapM_cons, hab, ih]

theorem forM_congr {check check' : α → Except ε Unit} {l : List α}
    (h : ∀ a ∈ l, check a = check' a) : l.forM check = l.forM check' := by
  induction l with
  | nil => rfl
  | cons a l ih =>
    obtain ⟨ha, hl⟩ := List.forall_mem_cons.mp h
    rw [List.forM_eq_forM] at ih ⊢
    rw [List.forM_cons, List.forM_cons, ha, ih hl]

theorem toOption_eq_some_iff {run : Except ε α} {a : α} : run.toOption = some a ↔ run = .ok a := by
  cases run <;> simp [Except.toOption]

theorem toOption_bind {β : Type} (run : Except ε α) (next : α → Except ε β) :
    (run >>= next).toOption = run.toOption.bind fun a => (next a).toOption := by
  cases run <;> rfl

theorem toOption_map {β : Type} (f : α → β) (run : Except ε α) :
    (run.map f).toOption = run.toOption.map f := by
  cases run <;> rfl

theorem toOption_mapM {β : Type} (f : α → Except ε β) (l : List α) :
    (l.mapM f).toOption = l.mapM fun a => (f a).toOption := by
  induction l with
  | nil => rfl
  | cons a l ih =>
    rw [List.mapM_cons, List.mapM_cons, toOption_bind]
    simp only [toOption_bind, ih]
    rfl

/-- The invariant speaks of the elements that are done. -/
theorem foldlM_checkedBy {step : σ → α → Except ε σ} {check : α → Except ε Unit}
    {inv : List α → σ → Prop} {l : List α} {s : σ} (hinit : inv [] s)
    (hstep : ∀ done a rest s, l = done ++ a :: rest → inv done s →
      CheckedBy (check a) (inv (done ++ [a])) (step s a)) :
    CheckedBy (l.forM check) (inv l) (l.foldlM step s) := by
  suffices hrest : ∀ rest done s, l = done ++ rest → inv done s →
      CheckedBy (rest.forM check) (inv l) (rest.foldlM step s) from hrest l [] s rfl hinit
  intro rest
  induction rest with
  | nil =>
    rintro done s rfl hs
    exact ⟨s, rfl, by simpa using hs⟩
  | cons a rest ih =>
    intro done s hl hs
    have ha := hstep done a rest s hl hs
    rw [List.forM_eq_forM, List.forM_cons, List.foldlM_cons]
    cases hcheck : check a with
    | error e =>
      rw [ha.error_iff.mpr hcheck]
      rfl
    | ok _ =>
      obtain ⟨s', hs', hinv⟩ := ha.exists_ok hcheck
      rw [hs']
      exact ih (done ++ [a]) s' (by simpa using hl) hinv

/-! ### What a run fails with -/

section Verdict

variable {β γ δ : Type}

/-- Whether a run ends well, and its fault if it does not. -/
def verdict (run : Except ε α) : Except ε Unit := run.map fun _ => ()

@[simp]
theorem verdict_ok (a : α) : verdict (.ok a : Except ε α) = .ok () := rfl

@[simp]
theorem verdict_error (e : ε) : verdict (.error e : Except ε α) = .error e := rfl

theorem CheckedBy.verdict_eq {check : Except ε Unit} {post : α → Prop} {run : Except ε α}
    (h : CheckedBy check post run) : verdict run = check := by
  cases check with
  | error e =>
    rw [show run = .error e from h]
    rfl
  | ok _ =>
    obtain ⟨a, rfl, -⟩ := h
    rfl

variable {run : Except ε α} {run' : Except ε β}

theorem error_iff_of_verdict_eq (h : verdict run = verdict run') {e : ε} :
    run = .error e ↔ run' = .error e := by
  cases run <;> cases run' <;> simp_all

theorem exists_ok_iff_of_verdict_eq (h : verdict run = verdict run') :
    (∃ a, run = .ok a) ↔ ∃ b, run' = .ok b := by
  cases run <;> cases run' <;> simp_all

theorem verdict_bind_congr {next : α → Except ε γ} {next' : β → Except ε δ}
    (h : verdict run = verdict run') (hnext : ∀ a b, verdict (next a) = verdict (next' b)) :
    verdict (run >>= next) = verdict (run' >>= next') := by
  cases run with
  | error e =>
    rw [(error_iff_of_verdict_eq h).mp rfl]
    rfl
  | ok a =>
    obtain ⟨b, rfl⟩ := (exists_ok_iff_of_verdict_eq h).mp ⟨a, rfl⟩
    exact hnext a b

theorem verdict_mapM_congr {f : α → Except ε β} {f' : γ → Except ε δ} (g : α → γ) {l : List α}
    (h : ∀ a ∈ l, verdict (f a) = verdict (f' (g a))) :
    verdict (l.mapM f) = verdict ((l.map g).mapM f') := by
  induction l with
  | nil => rfl
  | cons a l ih =>
    obtain ⟨ha, hl⟩ := List.forall_mem_cons.mp h
    rw [List.mapM_cons, List.map_cons, List.mapM_cons]
    apply verdict_bind_congr ha
    intro b b'
    apply verdict_bind_congr (ih hl)
    intro bs bs'
    rfl

end Verdict

/-! ### The faults of one run -/

/-- Whatever fault the run ends at is among those allowed. -/
def FaultsOnly (allowed : ε → Prop) (run : Except ε α) : Prop := ∀ e, run = .error e → allowed e

namespace FaultsOnly

variable {β : Type} {allowed : ε → Prop} {run : Except ε α}

theorem ok (a : α) : FaultsOnly allowed (.ok a) := by
  intro e he
  cases he

theorem error {e : ε} (he : allowed e) : FaultsOnly allowed (.error e : Except ε α) := by
  intro e' he'
  cases he'
  exact he

theorem imp {allowed' : ε → Prop} (h : FaultsOnly allowed run)
    (himp : ∀ e, allowed e → allowed' e) : FaultsOnly allowed' run := by
  intro e he
  exact himp e (h e he)

theorem bind {next : α → Except ε β} (h : FaultsOnly allowed run)
    (hnext : ∀ a, run = .ok a → FaultsOnly allowed (next a)) :
    FaultsOnly allowed (run >>= next) := by
  cases run with
  | error e => exact error (h e rfl)
  | ok a => exact hnext a rfl

theorem map (f : α → β) (h : FaultsOnly allowed run) : FaultsOnly allowed (run.map f) := by
  cases run with
  | error e => exact error (h e rfl)
  | ok a => exact ok (f a)

theorem mapM {f : α → Except ε β} {l : List α} (h : ∀ a ∈ l, FaultsOnly allowed (f a)) :
    FaultsOnly allowed (l.mapM f) := by
  induction l with
  | nil => exact ok []
  | cons a l ih =>
    rw [List.mapM_cons]
    have hrest := ih fun b hb => h b (List.mem_cons_of_mem a hb)
    refine (h a List.mem_cons_self).bind fun b _ => ?_
    exact hrest.bind fun bs _ => ok (b :: bs)

theorem forM {check : α → Except ε Unit} {l : List α} (h : ∀ a ∈ l, FaultsOnly allowed (check a)) :
    FaultsOnly allowed (l.forM check) := by
  induction l with
  | nil => exact ok ()
  | cons a l ih =>
    have hrest := ih fun b hb => h b (List.mem_cons_of_mem a hb)
    rw [List.forM_eq_forM] at hrest ⊢
    rw [List.forM_cons]
    exact (h a List.mem_cons_self).bind fun _ _ => hrest

end FaultsOnly

/-! ### The first element at fault -/

section First

variable {ε α β : Type}

/-- The fault is that of the first element that has one. -/
def FirstFault (fault : α → ε → Prop) (l : List α) (e : ε) : Prop :=
  ∃ before a after, l = before ++ a :: after ∧ (∀ b ∈ before, ∀ e', ¬fault b e') ∧ fault a e

variable {fault fault' : α → ε → Prop} {l : List α} {e : ε}

theorem FirstFault.congr (h : ∀ a ∈ l, ∀ e, fault a e ↔ fault' a e) :
    FirstFault fault l e ↔ FirstFault fault' l e := by
  unfold FirstFault
  constructor
  · rintro ⟨before, a, after, rfl, hbefore, ha⟩
    refine ⟨before, a, after, rfl, fun b hb e' hfault => ?_, (h a (by simp) e).mp ha⟩
    exact hbefore b hb e' ((h b (by simp [hb]) e').mpr hfault)
  · rintro ⟨before, a, after, rfl, hbefore, ha⟩
    refine ⟨before, a, after, rfl, fun b hb e' hfault => ?_, (h a (by simp) e).mpr ha⟩
    exact hbefore b hb e' ((h b (by simp [hb]) e').mp hfault)

theorem FirstFault.exists_mem (h : FirstFault fault l e) : ∃ a ∈ l, fault a e := by
  obtain ⟨before, a, after, rfl, -, ha⟩ := h
  exact ⟨a, by simp, ha⟩

theorem not_firstFault_nil : ¬FirstFault fault [] e := by
  rintro ⟨before, a, after, hnil, -⟩
  simp at hnil

theorem firstFault_cons_iff {a : α} :
    FirstFault fault (a :: l) e ↔ fault a e ∨ (∀ e', ¬fault a e') ∧ FirstFault fault l e := by
  constructor
  · rintro ⟨before, b, after, heq, hbefore, hb⟩
    cases before with
    | nil =>
      obtain ⟨rfl, rfl⟩ := List.cons.inj heq
      exact .inl hb
    | cons first before =>
      obtain ⟨rfl, rfl⟩ := List.cons.inj heq
      obtain ⟨ha, hbefore⟩ := List.forall_mem_cons.mp hbefore
      exact .inr ⟨ha, before, b, after, rfl, hbefore, hb⟩
  · rintro (ha | ⟨ha, before, b, after, rfl, hbefore, hb⟩)
    · exact ⟨[], a, l, rfl, by simp, ha⟩
    · exact ⟨a :: before, b, after, rfl, List.forall_mem_cons.mpr ⟨ha, hbefore⟩, hb⟩

theorem FirstFault.unique (hunique : ∀ a e e', fault a e → fault a e' → e = e') {e' : ε}
    (h : FirstFault fault l e) (h' : FirstFault fault l e') : e = e' := by
  induction l with
  | nil => exact absurd h not_firstFault_nil
  | cons a l ih =>
    obtain ha | ⟨hno, h⟩ := firstFault_cons_iff.mp h
    · obtain ha' | ⟨hno, -⟩ := firstFault_cons_iff.mp h'
      · exact hunique a e e' ha ha'
      · exact absurd ha (hno e)
    · obtain ha' | ⟨-, h'⟩ := firstFault_cons_iff.mp h'
      · exact absurd ha' (hno e')
      · exact ih h h'

theorem not_error_iff {run : Except ε α} : (∀ e, ¬run = .error e) ↔ ∃ a, run = .ok a := by
  cases run <;> simp

theorem bind_eq_error_iff {run : Except ε α} {next : α → Except ε β} :
    (run >>= next) = .error e ↔ run = .error e ∨ ∃ a, run = .ok a ∧ next a = .error e := by
  cases run <;> simp [Bind.bind, Except.bind]

theorem map_eq_error_iff {f : α → β} {run : Except ε α} :
    run.map f = .error e ↔ run = .error e := by
  cases run <;> simp [Except.map]

theorem mapM_eq_error_iff {f : α → Except ε β} :
    l.mapM f = .error e ↔ FirstFault (fun a e => f a = .error e) l e := by
  induction l with
  | nil => simp [not_firstFault_nil, pure, Except.pure]
  | cons a l ih =>
    rw [List.mapM_cons, firstFault_cons_iff, bind_eq_error_iff, not_error_iff, ← ih]
    simp [bind_eq_error_iff, pure, Except.pure]

theorem forM_eq_error_iff {check : α → Except ε Unit} :
    l.forM check = .error e ↔ FirstFault (fun a e => check a = .error e) l e := by
  induction l with
  | nil => simp [not_firstFault_nil, pure, Except.pure]
  | cons a l ih =>
    rw [List.forM_eq_forM] at ih ⊢
    rw [List.forM_cons, firstFault_cons_iff, bind_eq_error_iff, not_error_iff, ← ih]
    simp

end First

end SqlTemplate
