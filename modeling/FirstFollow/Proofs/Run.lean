import FirstFollow.Proofs.Memo

/-!
The successful runs of a scripted equation as a relation between sessions, one rule for each way a
run can go on. Facts about runs are proved by induction on it; `Run.frame` says what each part of a
run leaves alone.
-/

namespace FirstFollow

variable {ι σ : Type}

namespace Session

variable [Recorder σ]

def note (s : Session σ) (e : SetKind → Event) : Session σ :=
  { s with around := Recorder.record (e s.memo.kind) s.around }

def start (s : Session σ) (n : Symbol) : Session σ :=
  { memo := s.memo.start n
    around := Recorder.record (.entered s.memo.kind n s.memo.count) s.around }

/-- Adds to the set that is being found first-hand, if there is one. -/
def grow (s : Session σ) (target : Option Symbol) (A : SymbolSet) : Session σ :=
  match target with
  | some n => { s with memo := s.memo.grow n A }
  | none => s

@[simp] theorem note_memo (s : Session σ) (e : SetKind → Event) : (s.note e).memo = s.memo := rfl

@[simp] theorem start_memo (s : Session σ) (n : Symbol) : (s.start n).memo = s.memo.start n := rfl

end Session

/-- The parts of which runs are made. -/
inductive Task (ι : Type) where
  | ask (n : Symbol)
  /-- To act out a script for the set of `target`, or for no set in particular. -/
  | play (target : Option Symbol) (p : Script ι) (sum : Answer)
  /-- To compute the members of a group again, `grown` telling of those before them. -/
  | pass (first : Nat) (members : List Symbol) (grown : Bool)
  | settle (first mark : Nat)
  /-- To settle the group above `mark` if it needs to be. -/
  | finish (first mark : Nat) (low : Low)

abbrev Task.Result : Task ι → Type
  | ask _ | play .. => Answer
  | pass .. => Bool
  | settle .. | finish .. => Unit

section

variable [Recorder σ] (script : Symbol → Script ι) (Calls : ι → σ → SymbolSet → σ → Prop)

inductive Run : (t : Task ι) → Session σ → t.Result → Session σ → Prop
  | known {n s A} : s.memo.done.get? n = some A → Run (.ask n) s ⟨A, .settled⟩ s
  | reentered {n s u} : s.memo.done.get? n = none → s.memo.unfinished.get? n = some u →
      Run (.ask n) s ⟨u.part, .number u.number⟩ (s.note (.reentered · n u.part))
  | left {n s a s' A} : s.memo.done.get? n = none → s.memo.unfinished.get? n = none →
      Run (.play (some n) (script n) ∅) (s.start n) a s' →
      a.low.below s.memo.count = true → s'.memo.part? n = some A →
      Run (.ask n) s ⟨A, a.low⟩ s'
  | closed {n s a s₁ s₂ s' A} : s.memo.done.get? n = none → s.memo.unfinished.get? n = none →
      Run (.play (some n) (script n) ∅) (s.start n) a s₁ →
      a.low.below s.memo.count = false →
      Run (.finish s.memo.count s.memo.group.length a.low) s₁ () s₂ →
      Solve.close s.memo.group.length s₂ = (.ok (), s') → s'.memo.done.get? n = some A →
      Run (.ask n) s ⟨A, .settled⟩ s'
  | done {target sum s} : Run (.play target .done sum) s sum s
  | emit {target A p sum s a s'} :
      Run (.play target p (sum.join ⟨A, .settled⟩)) (s.grow target A) a s' →
      Run (.play target (.emit A p) sum) s a s'
  | ask {target n k sum s a s₁ b s'} : Run (.ask n) s a s₁ →
      Run (.play target (k a.set) (sum.join ⟨∅, a.low⟩)) s₁ b s' →
      Run (.play target (.ask n k) sum) s b s'
  | call {target i k sum s A around b s'} : Calls i s.around A around →
      Run (.play target (k A) sum) { s with around } b s' →
      Run (.play target (.call i k) sum) s b s'
  | passed {first grown s} : Run (.pass first [] grown) s grown s
  | same {first n rest grown s a s₁ A g s'} : Run (.play none (script n) ∅) s a s₁ →
      s₁.memo.part? n = some A → a.set ⊆ A →
      Run (.pass first rest grown) (s₁.note (.recomputed · first n a.low)) g s' →
      Run (.pass first (n :: rest) grown) s g s'
  | grew {first n rest grown s a s₁ A g s'} : Run (.play none (script n) ∅) s a s₁ →
      s₁.memo.part? n = some A → ¬ a.set ⊆ A →
      Run (.pass first rest true)
        ((s₁.note (.recomputed · first n a.low)).grow (some n) a.set) g s' →
      Run (.pass first (n :: rest) grown) s g s'
  | stable {first mark s s'} : Run (.pass first (s.memo.group.drop mark) false) s false s' →
      s'.memo.group.length ≤ s.memo.group.length → Run (.settle first mark) s () s'
  | again {first mark s g s₁ s'} : Run (.pass first (s.memo.group.drop mark) false) s g s₁ →
      g = true ∨ s.memo.group.length < s₁.memo.group.length →
      Run (.settle first mark) s₁ () s' → Run (.settle first mark) s () s'
  | alone {first mark s} : s.memo.group.length - mark ≤ 1 →
      Run (.finish first mark .settled) s () s
  | together {first mark low s s'} : low ≠ .settled ∨ 1 < s.memo.group.length - mark →
      Run (.settle first mark) (s.note (.settling · (s.memo.group.length - mark))) () s' →
      Run (.finish first mark low) s () s'

end

/-! ### Closing a group -/

/-- Some events were taken down. -/
def Recorded [Recorder σ] (a a' : σ) : Prop :=
  ∃ es : List Event, a' = es.foldl (fun a e => Recorder.record e a) a

theorem Recorded.trans [Recorder σ] {a a' a'' : σ} (h : Recorded a a') (h' : Recorded a' a'') :
    Recorded a a'' := by
  obtain ⟨es, rfl⟩ := h
  obtain ⟨es', rfl⟩ := h'
  exact ⟨es ++ es', by rw [List.foldl_append]⟩

theorem Recorded.preserves [Recorder σ] {a a' : σ} (h : Recorded a a') {J : σ → Prop}
    (hJ : ∀ e a, J a → J (Recorder.record e a)) (ha : J a) : J a' := by
  obtain ⟨es, rfl⟩ := h
  induction es generalizing a with
  | nil => exact ha
  | cons e es ih => exact ih (hJ e a ha)

theorem Recorded.reflects [Recorder σ] {a a' : σ} (h : Recorded a a') {P : σ → Prop}
    (hP : ∀ e a, P (Recorder.record e a) → P a) (ha : P a') : P a := by
  obtain ⟨es, rfl⟩ := h
  induction es generalizing a with
  | nil => exact ha
  | cons e es ih => exact hP e a (ih ha)

namespace Solve

theorem part_apply (n : Symbol) (s : Session σ) : part n s =
    match s.memo.part? n with
    | some A => (.ok A, s)
    | none => (.error (.notOpen n), s) := by
  rw [part, bind_ok (memo_apply s)]
  cases s.memo.part? n <;> rfl

theorem doneSet_apply (n : Symbol) (s : Session σ) : doneSet n s =
    match s.memo.done.get? n with
    | some A => (.ok A, s)
    | none => (.error (.notOpen n), s) := by
  rw [doneSet, bind_ok (memo_apply s)]
  cases s.memo.done.get? n <;> rfl

variable [Recorder σ]

/-- One member of a group that is closed. -/
def finishOne (n : Symbol) : Solve σ Unit := do
  let set ← part n
  changeMemo (·.complete n set)
  record (.completed · n set)

theorem finishOne_apply {n : Symbol} {s : Session σ} {A : SymbolSet}
    (h : s.memo.part? n = some A) : finishOne n s =
      (.ok (), ({ s with memo := s.memo.finish n } : Session σ).note (.completed · n A)) := by
  have hp : part n s = (.ok A, s) := by rw [part_apply, h]
  rw [finishOne, bind_ok hp, bind_ok (changeMemo_apply _ s), record_apply]
  simp [Session.note, Memo.finish, h]

theorem finishOne_error {n : Symbol} {s : Session σ} (h : s.memo.part? n = none) :
    finishOne n s = (.error (.notOpen n), s) := by
  have hp : part n s = (.error (.notOpen n), s) := by rw [part_apply, h]
  rw [finishOne, bind_apply, hp]

theorem forM_finishOne {ns : List Symbol} {s s' : Session σ}
    (h : ns.forM finishOne s = (.ok (), s')) :
    s'.memo = ns.foldl Memo.finish s.memo ∧ Recorded s.around s'.around := by
  induction ns generalizing s with
  | nil =>
    cases h
    exact ⟨rfl, [], rfl⟩
  | cons n ns ih =>
    rw [List.forM_eq_forM, List.forM_cons] at h
    cases hp : s.memo.part? n with
    | none =>
      rw [bind_apply, finishOne_error hp] at h
      cases h
    | some A =>
      rw [bind_ok (finishOne_apply hp)] at h
      obtain ⟨hm, hr⟩ := ih h
      exact ⟨hm, .trans ⟨[_], rfl⟩ hr⟩

theorem forM_finishOne_ok {ns : List Symbol} (hns : ns.Nodup) {s : Session σ}
    (h : ∀ n ∈ ns, ∃ u, s.memo.unfinished.get? n = some u) :
    ∃ s', ns.forM finishOne s = (.ok (), s') := by
  induction ns generalizing s with
  | nil => exact ⟨s, rfl⟩
  | cons n ns ih =>
    obtain ⟨u, hu⟩ := h n (by simp)
    have hp : s.memo.part? n = some u.part := by simp [Memo.part?, hu]
    rw [List.forM_eq_forM, List.forM_cons, bind_ok (finishOne_apply hp)]
    refine ih (List.nodup_cons.1 hns).2 fun y hy => ?_
    have hyn : y ≠ n := fun e => (List.nodup_cons.1 hns).1 (e ▸ hy)
    obtain ⟨v, hv⟩ := h y (by simp [hy])
    exact ⟨v, by simp [(Memo.finish_get? hu y).1, hyn, hv]⟩

theorem close_eq (mark : Nat) (s : Session σ) : close mark s =
    (s.memo.group.drop mark).forM finishOne
      (({ s with memo := { s.memo with group := s.memo.group.take mark } } : Session σ).note
        (.closed · (s.memo.group.drop mark))) := rfl

theorem close_memo {mark : Nat} {s s' : Session σ} (h : close mark s = (.ok (), s')) :
    s'.memo = s.memo.close mark ∧ Recorded s.around s'.around := by
  rw [close_eq] at h
  obtain ⟨hm, hr⟩ := forM_finishOne h
  exact ⟨hm, .trans ⟨[_], rfl⟩ hr⟩

theorem close_ok {s : Session σ} (h : s.memo.Wf) (mark : Nat) :
    ∃ s', close mark s = (.ok (), s') := by
  rw [close_eq]
  exact forM_finishOne_ok h.nodup_drop h.mem_drop

end Solve

/-! ### What a run leaves alone -/

/-- The unfinished sets that a task may change, of those that stand on `stack` when it begins. -/
def Task.touches (stack : List Symbol) : Task ι → Symbol → Prop
  | .ask _, _ => False
  | .play target .., x => target = some x
  | .pass _ members _, x => x ∈ members
  | .settle _ mark, x | .finish _ mark _, x => x ∉ stack.take mark

namespace Run

variable [Recorder σ] {script : Symbol → Script ι} {Calls : ι → σ → SymbolSet → σ → Prop}

/-- Unfinished sets outside of `P` are the same. -/
def Keeps (P : Symbol → Prop) (m m' : Memo) : Prop :=
  ∀ x u, ¬ P x → m.unfinished.get? x = some u → m'.unfinished.get? x = some u

theorem Keeps.refl (P : Symbol → Prop) (m : Memo) : Keeps P m m := fun _ _ _ => id

theorem Keeps.trans {P Q : Symbol → Prop} {m m' m'' : Memo} (h : Keeps P m m')
    (h' : Keeps Q m' m'') : Keeps (fun x => P x ∨ Q x) m m'' :=
  fun x u hx hu => h' x u (fun hq => hx (.inr hq)) (h x u (fun hp => hx (.inl hp)) hu)

theorem Keeps.mono {P Q : Symbol → Prop} {m m' : Memo} (h : Keeps P m m')
    (hPQ : ∀ x u, m.unfinished.get? x = some u → P x → Q x) : Keeps Q m m' :=
  fun x u hx hu => h x u (fun hp => hx (hPQ x u hu hp)) hu

theorem Keeps.grow (m : Memo) (n : Symbol) (A : SymbolSet) : Keeps (· = n) m (m.grow n A) := by
  intro x u hx hu
  simp [Memo.get?_grow, hu, hx]

theorem Keeps.start (P : Symbol → Prop) {m : Memo} {n : Symbol}
    (hn : m.unfinished.get? n = none) : Keeps P m (m.start n) := by
  intro x u _ hu
  have hxn : x ≠ n := by
    rintro rfl
    simp [hn] at hu
  simpa [Memo.get?_start, hxn] using hu

/-- A later state of a memo in which only sets in `P` have changed. -/
structure Framed (P : Symbol → Prop) (m m' : Memo) : Prop where
  wf : m'.Wf
  growth : m.Extends m'
  keeps : Keeps P m m'

/-- A run keeps the laws of the memo, extends it, and changes only what its task touches. -/
theorem frame {t : Task ι} {s s' : Session σ} {r : t.Result} (h : Run script Calls t s r s')
    (hs : s.memo.Wf) : Framed (t.touches s.memo.group) s.memo s'.memo := by
  induction h with
  | known _ | reentered _ _ | done | passed | alone _ => exact ⟨hs, .refl _, .refl _ _⟩
  | @left n s a s' A hd hu _ _ _ ih =>
    have h := ih (hs.start hd hu)
    refine ⟨h.wf, (Memo.Extends.start hu).trans h.growth, ?_⟩
    apply ((Keeps.start (fun _ => False) hu).trans h.keeps).mono
    rintro x u hx (hf | hxn)
    · exact hf
    · obtain rfl : n = x := Option.some.inj hxn
      simp [hu] at hx
  | @closed n s a s₁ s₂ s' A hd hu _ _ _ hc _ ih₁ ih₂ =>
    have h₁ := ih₁ (hs.start hd hu)
    have h₂ := ih₂ h₁.wf
    have hx₂ := ((Memo.Extends.start hu).trans h₁.growth).trans h₂.growth
    rw [(Solve.close_memo hc).1]
    refine ⟨h₂.wf.close _, hx₂.close hs h₂.wf, ?_⟩
    intro x u _ hx
    have hxn : x ≠ n := by
      rintro rfl
      simp [hu] at hx
    have hmem : x ∈ s.memo.group := hs.mem_group_iff.2 ⟨u, hx⟩
    have hkeep := h₁.keeps x u (fun e => hxn (Option.some.inj e).symm)
      (Keeps.start (fun _ => False) hu x u id hx)
    have htake := List.prefix_iff_eq_take.1 ((Memo.Extends.start hu).trans h₁.growth).group
    have hkeep₂ := h₂.keeps x u (fun hnot => hnot (htake ▸ hmem)) hkeep
    have htake₂ := List.prefix_iff_eq_take.1 hx₂.group
    rw [h₂.wf.close_unfinished, if_neg (h₂.wf.not_mem_drop (htake₂ ▸ hmem))]
    exact hkeep₂
  | @emit target A p sum s a s' _ ih =>
    cases target with
    | none => exact ih hs
    | some n =>
      have h := ih (hs.grow n A)
      refine ⟨h.wf, (Memo.Extends.grow _ n A).trans h.growth, ?_⟩
      apply ((Keeps.grow s.memo n A).trans h.keeps).mono
      rintro x u - (rfl | hx)
      · rfl
      · exact hx
  | ask _ _ ih₁ ih₂ =>
    have h₁ := ih₁ hs
    have h₂ := ih₂ h₁.wf
    exact ⟨h₂.wf, h₁.growth.trans h₂.growth,
      (h₁.keeps.trans h₂.keeps).mono fun x u _ hx => hx.resolve_left id⟩
  | call _ _ ih => exact ih hs
  | @same first n rest grown s a s₁ A g s' _ _ _ _ ih₁ ih₂ =>
    have h₁ := ih₁ hs
    have h₂ := ih₂ h₁.wf
    refine ⟨h₂.wf, h₁.growth.trans h₂.growth, (h₁.keeps.trans h₂.keeps).mono ?_⟩
    rintro x u - (hx | hx)
    · cases hx
    · exact List.mem_cons_of_mem n hx
  | @grew first n rest grown s a s₁ A g s' _ _ _ _ ih₁ ih₂ =>
    have h₁ := ih₁ hs
    have hg := h₁.growth.trans (Memo.Extends.grow s₁.memo n a.set)
    have h₂ := ih₂ (h₁.wf.grow n a.set)
    refine ⟨h₂.wf, hg.trans h₂.growth, ?_⟩
    refine ((h₁.keeps.trans (Keeps.grow s₁.memo n a.set)).trans h₂.keeps).mono ?_
    rintro x u - ((hx | rfl) | hx)
    · cases hx
    · exact List.mem_cons_self
    · exact List.mem_cons_of_mem n hx
  | @stable first mark s s' _ _ ih =>
    have h := ih hs
    exact ⟨h.wf, h.growth, h.keeps.mono fun x u _ hx htake => hs.not_mem_drop htake hx⟩
  | @again first mark s g s₁ s' _ _ _ ih₁ ih₂ =>
    have h₁ := ih₁ hs
    have h₂ := ih₂ h₁.wf
    refine ⟨h₂.wf, h₁.growth.trans h₂.growth, (h₁.keeps.trans h₂.keeps).mono ?_⟩
    rintro x u - (hx | hx) htake
    · exact hs.not_mem_drop htake hx
    · exact hx ((h₁.growth.group.take mark).subset htake)
  | together _ _ ih => exact ih hs

end Run

/-! ### What answers rest on -/

namespace Memo

variable {m m' : Memo} {low low' : Low} {P Q : Symbol → Prop}

/-- If `low` is a number, it is that of an unfinished set in `P`. -/
def Rooted (P : Symbol → Prop) (m : Memo) (low : Low) : Prop :=
  ∀ l, low = .number l → ∃ y u, m.unfinished.get? y = some u ∧ u.number = l ∧ P y

theorem Rooted.settled (P : Symbol → Prop) (m : Memo) : m.Rooted P .settled := by
  simp [Rooted]

theorem Rooted.extend (h : m.Rooted P low) (hm : m.Extends m') : m'.Rooted P low := by
  intro l hl
  obtain ⟨y, u, hu, hnum, hy⟩ := h l hl
  obtain ⟨u', hu', hnum', -⟩ := hm.opened y u hu
  exact ⟨y, u', hu', hnum'.trans hnum, hy⟩

theorem Rooted.min (h : m.Rooted P low) (h' : m.Rooted P low') : m.Rooted P (low.min low') := by
  intro l hl
  cases low with
  | settled => exact h' l hl
  | number i =>
    cases low' with
    | settled => exact h l hl
    | number j =>
      rw [Low.number_min_number, Low.number.injEq] at hl
      rcases Nat.le_total i j with hij | hij
      · exact h l (congrArg Low.number ((Nat.min_eq_left hij).symm.trans hl))
      · exact h' l (congrArg Low.number ((Nat.min_eq_right hij).symm.trans hl))

/-- A number below all new ones is that of a set that was unfinished before. -/
theorem Rooted.old (h : m'.Rooted P low) (hm : m.Extends m') (hlow : low.below m.count = true) :
    ∃ y u, m.unfinished.get? y = some u ∧ low = .number u.number ∧ P y := by
  cases low with
  | settled => simp [Low.below] at hlow
  | number l =>
    have hlt : l < m.count := by simpa [Low.below] using hlow
    obtain ⟨y, u', hu', hnum', hy⟩ := h l rfl
    cases hopen : m.unfinished.get? y with
    | none => exact absurd (hm.fresh y u' hu' hopen) (by omega)
    | some u =>
      obtain ⟨v, hv, hnum, -⟩ := hm.opened y u hopen
      obtain rfl : v = u' := Option.some.inj (hv.symm.trans hu')
      exact ⟨y, u, hopen, congrArg Low.number (hnum'.symm.trans hnum), hy⟩

end Memo

namespace Run

variable [Recorder σ] {script : Symbol → Script ι} {Calls : ι → σ → SymbolSet → σ → Prop}
  {s s' : Session σ} {n : Symbol} {a : Answer}

/-- Sets of any symbol may root an answer. -/
def RootedResult : (t : Task ι) → Session σ → t.Result → Session σ → Prop
  | .ask _, s, a, _ => s.memo.Rooted (fun _ => True) a.low
  | .play _ _ sum, s, a, s' =>
      s.memo.Rooted (fun _ => True) sum.low → s'.memo.Rooted (fun _ => True) a.low
  | .pass .., _, _, _ | .settle .., _, _, _ | .finish .., _, _, _ => True

/-- The number of an answer is that of a set that was unfinished when it was asked for. -/
theorem rooted {t : Task ι} {r : t.Result} (h : Run script Calls t s r s') (hs : s.memo.Wf) :
    RootedResult t s r s' := by
  induction h with
  | known _ => exact .settled _ _
  | @reentered n s u _ hu => exact fun l hl => ⟨n, u, hu, Low.number.inj hl, trivial⟩
  | @left n s a s' A hd hu hplay hlow _ ih =>
    have hold := (Memo.Extends.start hu).trans (hplay.frame (hs.start hd hu)).growth
    obtain ⟨y, u, hy, hl, -⟩ := (ih (hs.start hd hu) (.settled _ _)).old hold hlow
    exact fun l hl' => ⟨y, u, hy, Low.number.inj (hl.symm.trans hl'), trivial⟩
  | closed => exact .settled _ _
  | done => exact id
  | @emit target A p sum s a s' _ ih =>
    intro hsum
    have hsum' : s.memo.Rooted (fun _ => True) (sum.join ⟨A, .settled⟩).low := by simpa using hsum
    cases target with
    | none => exact ih hs hsum'
    | some n => exact ih (hs.grow n A) (hsum'.extend (.grow s.memo n A))
  | ask hask _ ih₁ ih₂ =>
    intro hsum
    have hf := hask.frame hs
    exact ih₂ hf.wf ((hsum.min (ih₁ hs)).extend hf.growth)
  | call _ _ ih => exact ih hs
  | _ => trivial

/-- Asked for while nothing is unfinished, a set is finished at once. -/
theorem settled_of_empty (h : Run script Calls (.ask n) s a s') (hs : s.memo.Wf)
    (hempty : s.memo.group = []) :
    a.low = .settled ∧ s'.memo.done.get? n = some a.set ∧ s'.memo.group = [] := by
  have hnone : ∀ y u, s.memo.unfinished.get? y ≠ some u := by
    intro y u
    simp [hs.unfinished_of_empty hempty y]
  cases h with
  | known hd => exact ⟨rfl, hd, hempty⟩
  | reentered _ hu => exact absurd hu (hnone n _)
  | left hd hu hplay hlow hp =>
    have hold := (Memo.Extends.start hu).trans (hplay.frame (hs.start hd hu)).growth
    obtain ⟨y, u, hy, -⟩ := (hplay.rooted (hs.start hd hu) (.settled _ _)).old hold hlow
    exact absurd hy (hnone y u)
  | closed _ _ _ _ _ hclose hA =>
    refine ⟨rfl, hA, ?_⟩
    rw [(Solve.close_memo hclose).1, Memo.close_group, hempty]
    rfl

/-- The surroundings of a run go along a preorder that its calls and all records go along. -/
theorem reaches {Reach : σ → σ → Prop} (hrefl : ∀ a, Reach a a)
    (htrans : ∀ {a a' a''}, Reach a a' → Reach a' a'' → Reach a a'')
    (hcalls : ∀ i a A a', Calls i a A a' → Reach a a')
    (hrecord : ∀ e a, Reach a (Recorder.record e a)) {t : Task ι} {r : t.Result}
    (h : Run script Calls t s r s') : Reach s.around s'.around := by
  induction h with
  | known _ | done | passed | alone _ => exact hrefl _
  | reentered _ _ => exact hrecord _ _
  | left _ _ _ _ _ ih => exact htrans (hrecord _ _) ih
  | closed _ _ _ _ _ hclose _ ih₁ ih₂ =>
    refine htrans (htrans (hrecord _ _) ih₁) (htrans ih₂ ?_)
    exact (Solve.close_memo hclose).2.preserves (fun e _ h => htrans h (hrecord e _)) (hrefl _)
  | @emit target A p sum s a s' _ ih => cases target <;> exact ih
  | ask _ _ ih₁ ih₂ => exact htrans ih₁ ih₂
  | call hcall _ ih => exact htrans (hcalls _ _ _ _ hcall) ih
  | same _ _ _ _ ih₁ ih₂ | grew _ _ _ _ ih₁ ih₂ => exact htrans ih₁ (htrans (hrecord _ _) ih₂)
  | stable _ _ ih => exact ih
  | again _ _ _ ih₁ ih₂ => exact htrans ih₁ ih₂
  | together _ _ ih => exact htrans (hrecord _ _) ih

/-- What is known of the end of a run tells more of the calls on the way, if it can be traced back
through them. -/
theorem refine {Calls' : ι → σ → SymbolSet → σ → Prop} {P : σ → Prop}
    (hcalls : ∀ i a A a', Calls i a A a' → P a' → P a ∧ Calls' i a A a')
    (hrecord : ∀ e a, P (Recorder.record e a) → P a) {t : Task ι} {r : t.Result}
    (h : Run script Calls t s r s') (hs' : P s'.around) :
    P s.around ∧ Run script Calls' t s r s' := by
  induction h with
  | known hd => exact ⟨hs', .known hd⟩
  | reentered hd hu => exact ⟨hrecord _ _ hs', .reentered hd hu⟩
  | left hd hu _ hlow hp ih =>
    obtain ⟨hs, hplay⟩ := ih hs'
    exact ⟨hrecord _ _ hs, .left hd hu hplay hlow hp⟩
  | closed hd hu _ hlow _ hclose hA ih₁ ih₂ =>
    obtain ⟨hs₁, hfinish⟩ := ih₂ ((Solve.close_memo hclose).2.reflects hrecord hs')
    obtain ⟨hs, hplay⟩ := ih₁ hs₁
    exact ⟨hrecord _ _ hs, .closed hd hu hplay hlow hfinish hclose hA⟩
  | done => exact ⟨hs', .done⟩
  | @emit target A p sum s a s' _ ih =>
    obtain ⟨hs, hplay⟩ := ih hs'
    cases target <;> exact ⟨hs, .emit hplay⟩
  | ask _ _ ih₁ ih₂ =>
    obtain ⟨hs₁, hplay⟩ := ih₂ hs'
    obtain ⟨hs, hask⟩ := ih₁ hs₁
    exact ⟨hs, .ask hask hplay⟩
  | call hcall _ ih =>
    obtain ⟨hs₁, hplay⟩ := ih hs'
    obtain ⟨hs, hcall'⟩ := hcalls _ _ _ _ hcall hs₁
    exact ⟨hs, .call hcall' hplay⟩
  | passed => exact ⟨hs', .passed⟩
  | same _ hp hsub _ ih₁ ih₂ =>
    obtain ⟨hs₁, hpass⟩ := ih₂ hs'
    obtain ⟨hs, hplay⟩ := ih₁ (hrecord _ _ hs₁)
    exact ⟨hs, .same hplay hp hsub hpass⟩
  | grew _ hp hsub _ ih₁ ih₂ =>
    obtain ⟨hs₁, hpass⟩ := ih₂ hs'
    obtain ⟨hs, hplay⟩ := ih₁ (hrecord _ _ hs₁)
    exact ⟨hs, .grew hplay hp hsub hpass⟩
  | stable _ hlen ih =>
    obtain ⟨hs, hpass⟩ := ih hs'
    exact ⟨hs, .stable hpass hlen⟩
  | again _ hmore _ ih₁ ih₂ =>
    obtain ⟨hs₁, hsettle⟩ := ih₂ hs'
    obtain ⟨hs, hpass⟩ := ih₁ hs₁
    exact ⟨hs, .again hpass hmore hsettle⟩
  | alone hlen => exact ⟨hs', .alone hlen⟩
  | together hmany _ ih =>
    obtain ⟨hs, hsettle⟩ := ih hs'
    exact ⟨hrecord _ _ hs, .together hmany hsettle⟩

end Run

end FirstFollow
