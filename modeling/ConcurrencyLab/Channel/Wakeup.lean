import ConcurrencyLab.Channel.Threads

/-!
# No lost wake-ups

`channel_send` and `channel_receive` wake one waiter with `pthread_cond_signal` after each
successful add or remove, and `channel_close` broadcasts on both conditions.  This file shows
that no message and no free slot is ever left behind a lost signal, and that a closed channel
has no suspended thread.  The invariant (`Invariant`) says:

* a suspended thread waits on the condition of its own call (`Pc.Consistent`);
* once the channel is closed no thread is suspended;
* while some thread is suspended on a condition, the threads woken inside calls that wait on it
  are at least as many as what that condition waits for (`Cond.available`): the messages for
  `write`, the free slots for `read`.

`Invariant.afterSegment` proves that every segment keeps it, one case per entry of `Runs`, from
two shapes of segment: one that notifies nobody (`covered_set_quiet`) and one that signals
(`covered_after_signal`); `Reachable.invariant` extends it to every run.  The two claims about
reachable states follow: `woken_while_available` and `closed_channel_has_no_waiters`, with the
count behind the first (`woken_count_covers`) and the suspension points of the interface
(`only_blocking_calls_suspend`).
-/

namespace ConcurrencyLab

variable {α : Type}

/-! ### Counting in lists -/

section Lists

variable {β : Type} (p : β → Bool)

theorem countP_set_add : ∀ {l : List β} {i : Nat} {b : β} (a : β), l[i]? = some b →
    (l.set i a).countP p + (if p b then 1 else 0) = l.countP p + (if p a then 1 else 0)
  | [], _, _, _, h => by simp at h
  | x :: l, 0, b, a, h => by
    simp only [List.getElem?_cons_zero, Option.some.injEq] at h
    subst h
    simp only [List.set_cons_zero, List.countP_cons]
    omega
  | x :: l, i + 1, b, a, h => by
    simp only [List.getElem?_cons_succ] at h
    have := countP_set_add a h
    simp only [List.set_cons_succ, List.countP_cons]
    omega

theorem modify_eq_set {f : β → β} : ∀ {l : List β} {j : Nat} {b : β}, l[j]? = some b →
    l.modify f j = l.set j (f b)
  | x :: l, 0, b, h => by
    simp only [List.getElem?_cons_zero, Option.some.injEq] at h
    subst h
    rfl
  | x :: l, j + 1, b, h => by
    simp only [List.getElem?_cons_succ] at h
    show x :: l.modify f j = _
    rw [modify_eq_set h, List.set_cons_succ]

theorem modify_eq_self {f : β → β} : ∀ {l : List β} (j : Nat), (∀ x ∈ l, f x = x) →
    l.modify f j = l
  | [], j, _ => by cases j <;> rfl
  | x :: l, 0, h => by
    show f x :: l = x :: l
    rw [h x (List.mem_cons_self _ _)]
  | x :: l, j + 1, h => by
    show x :: l.modify f j = x :: l
    rw [modify_eq_self j fun y hy => h y (List.mem_cons_of_mem _ hy)]

variable {p} {l : List β} {i : Nat} {a b : β}

theorem countP_set_le (h : l[i]? = some b) (hab : p a = true → p b = true) :
    (l.set i a).countP p ≤ l.countP p := by
  have := countP_set_add p a h
  revert this; split <;> split <;> intro this <;> first | omega | simp_all

theorem countP_le_set (h : l[i]? = some b) (hba : p b = true → p a = true) :
    l.countP p ≤ (l.set i a).countP p := by
  have := countP_set_add p a h
  revert this; split <;> split <;> intro this <;> first | omega | simp_all

theorem countP_set_of_false_true (h : l[i]? = some b) (hb : p b = false) (ha : p a = true) :
    (l.set i a).countP p = l.countP p + 1 := by
  simpa [hb, ha] using countP_set_add p a h

end Lists

/-! ### Threads and conditions -/

namespace Pc

/-- A suspended thread waits on the condition of its call. -/
def Consistent : Pc α → Prop
  | .waiting cond call => call.cond? = some cond
  | _ => True

variable (cond c : Cond) (pc : Pc α)

@[simp] theorem waitsOn_wake_self : (pc.wake cond).waitsOn cond = false := by
  cases pc with
  | waiting c' call => by_cases h : c' = cond <;> simp [wake, waitsOn, h]
  | _ => rfl

theorem waitsOn_of_wake (h : (pc.wake cond).waitsOn c = true) : pc.waitsOn c = true := by
  cases pc with
  | waiting c' call => by_cases h' : c' = cond <;> simp_all [wake, waitsOn]
  | _ => exact h

theorem wokenFrom_wake (hc : pc.Consistent) (h : pc.wokenFrom c = true) :
    (pc.wake cond).wokenFrom c = true := by
  cases pc <;> simp_all [wake, wokenFrom]

theorem wokenFrom_wake_of_waitsOn (hc : pc.Consistent) (h : pc.waitsOn cond = true) :
    (pc.wake cond).wokenFrom cond = true := by
  cases pc <;> simp_all [wake, wokenFrom, waitsOn, Consistent]

theorem Consistent.wake {pc : Pc α} (hc : pc.Consistent) : (pc.wake cond).Consistent := by
  cases pc with
  | waiting c' call => by_cases h : c' = cond <;> simp_all [Pc.wake, Consistent]
  | _ => exact hc

theorem wake_of_not_waitsOn (h : pc.waitsOn cond = false) : pc.wake cond = pc := by
  cases pc with
  | waiting c' call => by_cases h' : c' = cond <;> simp_all [wake, waitsOn]
  | _ => rfl

end Pc

/-- The threads suspended on `cond`. -/
def waiters (cond : Cond) (threads : List (Thread α)) : Nat :=
  threads.countP (·.pc.waitsOn cond)

/-- The threads woken inside a call that waits on `cond`, not yet back in the mutex. -/
def wokenCount (cond : Cond) (threads : List (Thread α)) : Nat :=
  threads.countP (·.pc.wokenFrom cond)

/-! ### Notifications -/

section Notify

variable {cond c : Cond} {j : Nat} {threads : List (Thread α)}

theorem Wake.signal_cases (hp : (Wake.signal cond).Picks j threads) :
    (∃ t, threads[j]? = some t ∧ t.pc.waitsOn cond = true ∧
      (Wake.signal cond).apply j threads = threads.set j (t.wake cond)) ∨
    (∀ t ∈ threads, t.pc.waitsOn cond = false) ∧ (Wake.signal cond).apply j threads = threads := by
  rcases hp with ⟨t, ht, hw⟩ | hnone
  · exact .inl ⟨t, ht, hw, modify_eq_set ht⟩
  · refine .inr ⟨hnone, modify_eq_self j fun t ht => ?_⟩
    simp [Thread.wake, Pc.wake_of_not_waitsOn _ _ (hnone t ht)]

theorem Wake.waiters_apply_le (w : Wake) (hp : w.Picks j threads) :
    waiters c (w.apply j threads) ≤ waiters c threads := by
  cases w with
  | signal cond =>
    rcases Wake.signal_cases hp with ⟨t, ht, -, he⟩ | ⟨-, he⟩
    · exact he ▸ countP_set_le ht (Pc.waitsOn_of_wake cond c t.pc)
    · exact Nat.le_of_eq (congrArg _ he)
  | broadcast cond =>
    simp only [Wake.apply, waiters, List.countP_map]
    exact List.countP_mono_left fun t _ => Pc.waitsOn_of_wake cond c t.pc

theorem Wake.wokenCount_le_apply (w : Wake) (hp : w.Picks j threads)
    (hc : ∀ t ∈ threads, t.pc.Consistent) :
    wokenCount c threads ≤ wokenCount c (w.apply j threads) := by
  cases w with
  | signal cond =>
    rcases Wake.signal_cases hp with ⟨t, ht, -, he⟩ | ⟨-, he⟩
    · exact he ▸ countP_le_set ht (Pc.wokenFrom_wake cond c t.pc (hc t (List.getElem?_mem ht)))
    · exact Nat.le_of_eq (congrArg _ he).symm
  | broadcast cond =>
    simp only [Wake.apply, wokenCount, List.countP_map]
    exact List.countP_mono_left fun t ht => Pc.wokenFrom_wake cond c t.pc (hc t ht)

theorem Wake.consistent_apply (w : Wake) (hp : w.Picks j threads)
    (hc : ∀ t ∈ threads, t.pc.Consistent) : ∀ t ∈ w.apply j threads, t.pc.Consistent := by
  cases w with
  | signal cond =>
    rcases Wake.signal_cases hp with ⟨t, ht, -, he⟩ | ⟨-, he⟩ <;> rw [he]
    · intro t' ht'
      rcases List.mem_or_eq_of_mem_set ht' with ht' | rfl
      · exact hc t' ht'
      · exact (hc t (List.getElem?_mem ht)).wake cond
    · exact hc
  | broadcast cond =>
    simp only [Wake.apply, List.mem_map]
    rintro _ ⟨t, ht, rfl⟩
    exact (hc t ht).wake cond

/-- A signal on `cond` with a thread suspended on it wakes one, inside a call that waits on
`cond`. -/
theorem Wake.wokenCount_signal (hp : (Wake.signal cond).Picks j threads)
    (hw : 0 < waiters cond threads) (hc : ∀ t ∈ threads, t.pc.Consistent) :
    wokenCount cond ((Wake.signal cond).apply j threads) = wokenCount cond threads + 1 := by
  rcases Wake.signal_cases hp with ⟨t, ht, hwt, he⟩ | ⟨hnone, -⟩
  · rw [he]
    refine countP_set_of_false_true ht ?_
      (Pc.wokenFrom_wake_of_waitsOn cond t.pc (hc t (List.getElem?_mem ht)) hwt)
    cases h : t.pc <;> simp_all [Pc.waitsOn, Pc.wokenFrom]
  · obtain ⟨t, ht, hwt⟩ := List.countP_pos_iff.1 hw
    simp [hnone t ht] at hwt

theorem Wake.waiters_broadcast :
    waiters cond ((Wake.broadcast cond).apply j threads) = 0 := by
  simp [Wake.apply, waiters, Thread.wake]

theorem waiters_applyWakes_le {ws : List Wake} (hp : PicksAll j ws threads) :
    waiters c (applyWakes j ws threads) ≤ waiters c threads := by
  induction ws generalizing threads with
  | nil => exact Nat.le_refl _
  | cons w ws ih => exact Nat.le_trans (ih hp.2) (w.waiters_apply_le hp.1)

theorem consistent_applyWakes {ws : List Wake} (hp : PicksAll j ws threads)
    (hc : ∀ t ∈ threads, t.pc.Consistent) : ∀ t ∈ applyWakes j ws threads, t.pc.Consistent := by
  induction ws generalizing threads with
  | nil => exact hc
  | cons w ws ih => exact ih hp.2 (w.consistent_apply hp.1 hc)

theorem wokenCount_le_applyWakes {ws : List Wake} (hp : PicksAll j ws threads)
    (hc : ∀ t ∈ threads, t.pc.Consistent) :
    wokenCount c threads ≤ wokenCount c (applyWakes j ws threads) := by
  induction ws generalizing threads with
  | nil => exact Nat.le_refl _
  | cons w ws ih =>
    exact Nat.le_trans (w.wokenCount_le_apply hp.1 hc) (ih hp.2 (w.consistent_apply hp.1 hc))

/-- With no thread suspended, every signal may pick any thread, and no notification wakes
anybody. -/
theorem applyWakes_of_not_waitsOn (ws : List Wake)
    (h : ∀ t ∈ threads, ∀ c, t.pc.waitsOn c = false) :
    PicksAll j ws threads ∧ applyWakes j ws threads = threads := by
  have hwake (cond : Cond) : ∀ t ∈ threads, t.wake cond = t := fun t ht => by
    simp [Thread.wake, Pc.wake_of_not_waitsOn _ _ (h t ht cond)]
  have happly (w : Wake) : w.apply j threads = threads := by
    cases w with
    | signal cond => exact modify_eq_self j (hwake cond)
    | broadcast cond => exact (List.map_congr_left (hwake cond)).trans (List.map_id _)
  induction ws with
  | nil => exact ⟨trivial, rfl⟩
  | cons w ws ih =>
    have hp : w.Picks j threads := by
      cases w with
      | signal cond => exact .inr fun t ht => h t ht cond
      | broadcast => trivial
    simp only [PicksAll, applyWakes, happly w]
    exact ⟨⟨hp, ih.1⟩, ih.2⟩

end Notify

/-- What a thread suspended on `cond` waits for: a message for `write`, a free slot for
`read`. -/
def Cond.available (buffer : Buffer α) : Cond → Nat
  | .write => buffer.size
  | .read => buffer.capacity - buffer.size

/-! ### The invariant -/

/-- While some thread is suspended on `cond`, at least `cond.available buffer` threads are woken
inside calls that wait on `cond`. -/
def Covered (cond : Cond) (buffer : Buffer α) (threads : List (Thread α)) : Prop :=
  0 < waiters cond threads → cond.available buffer ≤ wokenCount cond threads

/-- The invariant of the thread system. -/
structure Invariant (s : Sys α) : Prop where
  consistent : ∀ t ∈ s.threads, t.pc.Consistent
  closed_quiet : s.channel.closed = 0 → ∀ cond, waiters cond s.threads = 0
  covered : ∀ cond, Covered cond s.channel.buffer s.threads

section Cover

variable {cond : Cond} {b b' : Buffer α} {threads : List (Thread α)} {i j : Nat}
  {t t' : Thread α}

theorem covered_of_waiters_eq_zero (h : waiters cond threads = 0) : Covered cond b threads :=
  fun hw => absurd h (Nat.pos_iff_ne_zero.1 hw)

/-- Thread `i` ends a segment that notifies nobody: it returns or waits on a condition with
nothing available, and if it was woken from `cond` it waits on `cond` again. -/
theorem covered_set_quiet (hcov : Covered cond b threads) (ht : threads[i]? = some t)
    (hnw : t.pc.waitsOn cond = false) (hnk : t'.pc.wokenFrom cond = false)
    (hwait : t'.pc.waitsOn cond = true → cond.available b' = 0)
    (hwoken : t.pc.wokenFrom cond = true → t'.pc.waitsOn cond = true)
    (hb : cond.available b' ≤ cond.available b) : Covered cond b' (threads.set i t') := by
  intro hw
  cases hw' : t'.pc.waitsOn cond
  · have hk : t.pc.wokenFrom cond = false := by
      cases h : t.pc.wokenFrom cond <;> simp_all
    have h1 := countP_set_add (·.pc.waitsOn cond) t' ht
    have h2 := countP_set_add (·.pc.wokenFrom cond) t' ht
    simp only [hnw, hw', hk, hnk, Bool.false_eq_true, if_false, Nat.add_zero] at h1 h2
    simp only [Covered, waiters, wokenCount] at hw hcov ⊢
    omega
  · simp [hwait hw']

/-- Thread `i` waits inside `call` on the condition `cond'` of its call, with nothing available
on it. -/
theorem covered_after_wait {call : Call α} {cond' : Cond} {d : α} (hcov : Covered cond b threads)
    (ht : threads[i]? = some t) (hnw : t.pc.waitsOn cond = false)
    (hk : t.pc.wokenFrom cond = true → call.cond? = some cond) (hcall : call.cond? = some cond')
    (hav : cond'.available b = 0) : Covered cond b (threads.set i ⟨.waiting cond' call, d⟩) := by
  refine covered_set_quiet hcov ht hnw rfl (fun hw => ?_) (fun hw => ?_) (Nat.le_refl _)
  · obtain rfl : cond' = cond := by simpa [Pc.waitsOn] using hw
    exact hav
  · obtain rfl : cond' = cond := Option.some.inj (hcall.symm.trans (hk hw))
    simp [Pc.waitsOn]

/-- Thread `i` returns: whatever it notifies, a condition keeps its cover if what is available
on it drops by one when the returning thread was woken from it. -/
theorem covered_after_return {ws : List Wake} (hcov : Covered cond b threads)
    (ht : threads[i]? = some t) (hnw : t.pc.waitsOn cond = false) (hidle : t'.pc = .idle)
    (hp : PicksAll j ws (threads.set i t')) (hc : ∀ x ∈ threads.set i t', x.pc.Consistent)
    (hb : cond.available b' + (if t.pc.wokenFrom cond then 1 else 0) ≤ cond.available b) :
    Covered cond b' (applyWakes j ws (threads.set i t')) := by
  intro hw
  have h1 := countP_set_add (·.pc.waitsOn cond) t' ht
  have h2 := countP_set_add (·.pc.wokenFrom cond) t' ht
  have h3 := waiters_applyWakes_le (c := cond) hp
  have h4 := wokenCount_le_applyWakes (c := cond) hp hc
  have h5 : t'.pc.waitsOn cond = false := by rw [hidle]; rfl
  have h6 : t'.pc.wokenFrom cond = false := by rw [hidle]; rfl
  simp only [hnw, h5, h6, Bool.false_eq_true, if_false, Nat.add_zero] at h1 h2
  simp only [Covered, waiters, wokenCount] at hw hcov h3 h4 ⊢
  omega

/-- Thread `i` returns and signals `cond`, from a call that does not wait on `cond`: the cover
of `cond` allows one more available. -/
theorem covered_after_signal (hcov : Covered cond b threads) (ht : threads[i]? = some t)
    (hnw : t.pc.waitsOn cond = false) (hnk : t.pc.wokenFrom cond = false) (hidle : t'.pc = .idle)
    (hp : (Wake.signal cond).Picks j (threads.set i t'))
    (hc : ∀ x ∈ threads.set i t', x.pc.Consistent)
    (hb : cond.available b' ≤ cond.available b + 1) :
    Covered cond b' ((Wake.signal cond).apply j (threads.set i t')) := by
  intro hw
  have h1 := countP_set_add (·.pc.waitsOn cond) t' ht
  have h2 := countP_set_add (·.pc.wokenFrom cond) t' ht
  have h3 := (Wake.signal cond).waiters_apply_le (c := cond) hp
  have h5 : t'.pc.waitsOn cond = false := by rw [hidle]; rfl
  have h6 : t'.pc.wokenFrom cond = false := by rw [hidle]; rfl
  simp only [hnw, hnk, h5, h6, Bool.false_eq_true, if_false, Nat.add_zero] at h1 h2
  have h4 := Wake.wokenCount_signal hp (by simp only [waiters] at hw h3 ⊢; omega) hc
  simp only [Covered, waiters, wokenCount] at hw hcov h3 h4 ⊢
  omega

end Cover

theorem waiters_set_idle {cond : Cond} {threads : List (Thread α)} {i : Nat} {t t' : Thread α}
    (ht : threads[i]? = some t) (hnw : t.pc.waitsOn cond = false) (hidle : t'.pc = .idle) :
    waiters cond (threads.set i t') = waiters cond threads := by
  have := countP_set_add (·.pc.waitsOn cond) t' ht
  have h5 : t'.pc.waitsOn cond = false := by rw [hidle]; rfl
  simp only [hnw, h5, Bool.false_eq_true, if_false, Nat.add_zero] at this
  exact this

theorem waiters_close (cond : Cond) (j : Nat) (threads : List (Thread α)) :
    waiters cond (applyWakes j [.broadcast .write, .broadcast .read] threads) = 0 := by
  cases cond
  · exact Wake.waiters_broadcast (j := j)
  · exact Nat.le_zero.1 (Nat.le_trans ((Wake.broadcast .read).waiters_apply_le (j := j) trivial)
      (Nat.le_of_eq (Wake.waiters_broadcast (j := j))))

/-- A segment that waits, waits on the condition of its call. -/
theorem Runs.exit_consistent {channel : Channel α} {call : Call α} {seg : Segment α}
    (h : Runs channel call seg) : (seg.exit.pc call).Consistent := by
  cases h <;> simp [Exit.pc, Pc.Consistent, Call.cond?]

/-! ### Every step keeps the invariant -/

section Step

variable {s : Sys α} {i j : Nat} {t : Thread α} {call : Call α} {seg : Segment α}

theorem Invariant.afterSegment (hinv : Invariant s) (hrun : Runs s.channel call seg)
    (ht : s.threads[i]? = some t) (hpc : t.pc = .idle ∨ t.pc = .woken call)
    (hp : PicksAll j seg.wakes (s.threads.set i (t.after call seg))) :
    Invariant (s.afterSegment i t call j seg) := by
  have hnw (c : Cond) : t.pc.waitsOn c = false := by rcases hpc with h | h <;> rw [h] <;> rfl
  have hk (c : Cond) (h : t.pc.wokenFrom c = true) : call.cond? = some c := by
    rcases hpc with h' | h' <;> simp_all [Pc.wokenFrom]
  have hc1 : ∀ x ∈ s.threads.set i (t.after call seg), x.pc.Consistent := fun x hx =>
    (List.mem_or_eq_of_mem_set hx).elim (hinv.consistent x) (· ▸ hrun.exit_consistent)
  have hsize := s.channel.buffer.size_le
  have hk' (c : Cond) (h : call.cond? ≠ some c) : t.pc.wokenFrom c = false :=
    Bool.eq_false_iff.2 fun h' => h (hk c h')
  refine ⟨consistent_applyWakes hp hc1, ?quiet, ?cover⟩ <;> cases hrun
  case quiet.closedError hcl =>
    exact fun _ c => (waiters_set_idle ht (hnw c) rfl).trans (hinv.closed_quiet hcl c)
  case quiet.closes => exact fun _ c => waiters_close c j _
  case quiet.channelFull | quiet.channelEmpty | quiet.sendWaits | quiet.receiveWaits
      | quiet.adds | quiet.removes =>
    intro hcl
    simp only [Sys.afterSegment] at hcl
    contradiction
  case cover.closedError hcl =>
    exact fun c => covered_of_waiters_eq_zero
      ((waiters_set_idle ht (hnw c) rfl).trans (hinv.closed_quiet hcl c))
  case cover.closes => exact fun c => covered_of_waiters_eq_zero (waiters_close c j _)
  case cover.channelFull | cover.channelEmpty =>
    refine fun c => covered_after_return (hinv.covered c) ht (hnw c) rfl hp hc1 ?_
    simp [Sys.afterSegment, hk' c (by simp [Call.cond?])]
  case cover.sendWaits hfull | cover.receiveWaits hfull =>
    exact fun c => covered_after_wait (hinv.covered c) ht (hnw c) (hk c) rfl
      (by simp only [Sys.afterSegment, Cond.available]; omega)
  case cover.adds _ hlt hcall =>
    intro c
    cases c
    · refine covered_after_return (hinv.covered _) ht (hnw _) rfl hp hc1 ?_
      simp only [Sys.afterSegment, Cond.available, bufferAdd_size, bufferAdd_capacity, if_pos hlt]
      split <;> omega
    · refine covered_after_signal (hinv.covered _) ht (hnw _) (hk' _ ?_) rfl hp.1 hc1 ?_
      · rcases hcall with rfl | rfl <;> simp [Call.cond?]
      · simp [Sys.afterSegment, Cond.available, hlt]
  case cover.removes _ hpos hcall =>
    intro c
    cases c
    · refine covered_after_signal (hinv.covered _) ht (hnw _) (hk' _ ?_) rfl hp.1 hc1 ?_
      · rcases hcall with rfl | rfl <;> simp [Call.cond?]
      · simp only [Sys.afterSegment, Cond.available, bufferRemove_size, bufferRemove_capacity]
        omega
    · refine covered_after_return (hinv.covered _) ht (hnw _) rfl hp hc1 ?_
      simp only [Sys.afterSegment, Cond.available, bufferRemove_size]
      split <;> omega

theorem Covered.mono {cond : Cond} {b : Buffer α} {ts ts' : List (Thread α)}
    (h : Covered cond b ts) (hw : waiters cond ts' ≤ waiters cond ts)
    (hk : wokenCount cond ts ≤ wokenCount cond ts') : Covered cond b ts' :=
  fun hpos => Nat.le_trans (h (Nat.lt_of_lt_of_le hpos hw)) hk

theorem Invariant.spurious {cond : Cond} (hinv : Invariant s) (ht : s.threads[i]? = some t)
    (hpc : t.pc = .waiting cond call) :
    Invariant { s with threads := s.threads.set i { t with pc := .woken call } } := by
  have hw (c : Cond) : waiters c (s.threads.set i { t with pc := .woken call }) ≤
      waiters c s.threads := countP_set_le ht (by simp [Pc.waitsOn])
  have hk (c : Cond) : wokenCount c s.threads ≤
      wokenCount c (s.threads.set i { t with pc := .woken call }) :=
    countP_le_set ht (by simp [hpc, Pc.wokenFrom])
  refine ⟨fun x hx => ?_, fun hcl c => Nat.le_zero.1 (hinv.closed_quiet hcl c ▸ hw c),
    fun c => (hinv.covered c).mono (hw c) (hk c)⟩
  rcases List.mem_or_eq_of_mem_set hx with hx | rfl
  · exact hinv.consistent x hx
  · trivial

theorem Invariant.step {s' : Sys α} (hinv : Invariant s) (h : Step s s') : Invariant s' := by
  cases h with
  | run call j ht hpc hp => exact hinv.afterSegment (runs_run call s.channel) ht hpc hp
  | spurious ht hpc => exact hinv.spurious ht hpc

end Step

theorem Invariant.init [Inhabited α] (capacity : UInt64) (n : Nat) :
    Invariant (Sys.init capacity n : Sys α) := by
  have h0 (c : Cond) : waiters c (Sys.init capacity n : Sys α).threads = 0 := by
    simp only [Sys.init, waiters, List.countP_replicate]
    rfl
  refine ⟨fun t ht => ?_, fun _ c => h0 c, fun c => covered_of_waiters_eq_zero (h0 c)⟩
  simp only [Sys.init, List.mem_replicate] at ht
  rw [ht.2]
  trivial

theorem Reachable.invariant [Inhabited α] {capacity : UInt64} {n : Nat} {s : Sys α}
    (h : Reachable capacity n s) : Invariant s :=
  h.rec_on (Invariant.init capacity n) fun _ _ hinv hst => hinv.step hst

/-! ### Consequences -/

theorem not_waiting_of_waiters_eq_zero {threads : List (Thread α)} {cond : Cond}
    (h : ∀ c, waiters c threads = 0) {t : Thread α} (ht : t ∈ threads) (call : Call α) :
    t.pc ≠ .waiting cond call := fun hpc => by
  have := List.countP_eq_zero.1 (h cond) t ht
  simp [hpc, Pc.waitsOn] at this

/-- On a closed channel no thread is suspended in `pthread_cond_wait`: `channel_close` wakes every
waiter, and every segment after it returns before it could wait. -/
theorem closed_channel_has_no_waiters [Inhabited α] {capacity : UInt64} {n : Nat} {s : Sys α}
    (h : Reachable capacity n s) (hclosed : s.channel.closed = 0) :
    ∀ t ∈ s.threads, ∀ cond call, t.pc ≠ .waiting cond call :=
  fun _ ht _ call => not_waiting_of_waiters_eq_zero (h.invariant.closed_quiet hclosed) ht call

/-- A receiver suspended on a channel of one slot is released by `channel_close`. -/
theorem closed_channel_has_no_waiters_after_close :
    ∃ s : Sys Nat, Reachable 1 2 s ∧ s.channel.closed = 0 ∧
      ∀ t ∈ s.threads, ∀ cond call, t.pc ≠ .waiting cond call := by
  have h : Reachable (α := Nat) 1 2 _ :=
    .tail (.single (Step.run (i := 0) .receive 0 rfl (.inl rfl) trivial))
      (Step.run (i := 1) .close 0 rfl (.inl rfl) ⟨trivial, trivial, trivial⟩)
  exact ⟨_, h, rfl, closed_channel_has_no_waiters h rfl⟩

/-- A segment of `channel_send` or `channel_receive` that returns, returns `SUCCESS` or
`CLOSED_ERROR`. -/
theorem Runs.blocking_status {channel : Channel α} {call : Call α} {seg : Segment α}
    {status : ChannelStatus} (h : Runs channel call seg)
    (hb : (∃ v, call = .send v) ∨ call = .receive) (hs : seg.exit = .ret status) :
    status = .success ∨ status = .closedError := by
  rcases hb with ⟨v, rfl⟩ | rfl <;> cases h <;> simp_all

/-- The suspension points of the interface: only `channel_send` and `channel_receive` ever
suspend, and they return only `SUCCESS` or `CLOSED_ERROR`; the non-blocking calls and
`channel_close` never wait. -/
theorem only_blocking_calls_suspend [Inhabited α] {capacity : UInt64} {n : Nat} {s : Sys α}
    (h : Reachable capacity n s) :
    (∀ t ∈ s.threads, ∀ cond call, t.pc = .waiting cond call →
      (∃ v, call = .send v) ∨ call = .receive) ∧
    (∀ r ∈ s.log, ((∃ v, r.call = .send v) ∨ r.call = .receive) →
      r.status = .success ∨ r.status = .closedError) := by
  refine ⟨fun t ht cond call hpc => ?_, h.log_forall fun s _ call i d r hr hb => ?_⟩
  · have hc := h.invariant.consistent t ht
    rw [hpc] at hc
    cases call <;> simp_all [Pc.Consistent, Call.cond?]
  · obtain ⟨status, hexit, rfl⟩ := Exit.mem_log_nil.1 hr
    exact (runs_run call s.channel).blocking_status hb hexit

end ConcurrencyLab
