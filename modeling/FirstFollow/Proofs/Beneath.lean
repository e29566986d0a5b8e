import FirstFollow.Proofs.Keys

/-!
Stacks above symbols that are never finished. A question about a symbol without productions fails
and leaves the symbol unfinished, so that all later sets are found above it on the stack. This
raises their numbers and changes nothing else: from a memo, and from the same memo above such
symbols, computations go on in lockstep (`Solve.ask_lockstep`), with the same sets, the same errors
and the same lines in a log.
-/

namespace FirstFollow

/-! ### Raised numbers -/

namespace Low

/-- Every number is `d` higher. -/
def raise (d : Nat) : Low → Low
  | settled => settled
  | number n => number (d + n)

@[simp] theorem raise_settled (d : Nat) : settled.raise d = settled := rfl

@[simp] theorem raise_eq_settled {d : Nat} {a : Low} : a.raise d = settled ↔ a = settled := by
  cases a <;> simp [raise]

@[simp] theorem raise_min (d : Nat) (a b : Low) :
    (a.min b).raise d = (a.raise d).min (b.raise d) := by
  cases a with
  | settled => rfl
  | number i =>
    cases b with
    | settled => rfl
    | number j => exact congrArg number (Nat.add_min_add_left d i j).symm

@[simp] theorem below_raise (d n : Nat) (a : Low) : (a.raise d).below (d + n) = a.below n := by
  cases a <;> simp [raise, below]

end Low

namespace Answer

def raise (d : Nat) (a : Answer) : Answer := ⟨a.set, a.low.raise d⟩

@[simp] theorem raise_set (d : Nat) (a : Answer) : (a.raise d).set = a.set := rfl

@[simp] theorem raise_low (d : Nat) (a : Answer) : (a.raise d).low = a.low.raise d := rfl

theorem raise_join (d : Nat) (a b : Answer) : (a.join b).raise d = (a.raise d).join (b.raise d) :=
  Answer.ext rfl (Low.raise_min d a.low b.low)

end Answer

/-! ### Memos -/

namespace Memo

variable {key : Symbol → Prop} {dead : List Symbol} {m m' : Memo} {n : Symbol}

/-- `m'` is `m`, a memo of keys, above the symbols of `dead`, nothing of which is found. -/
structure Above (key : Symbol → Prop) (dead : List Symbol) (m m' : Memo) : Prop where
  kind : m'.kind = m.kind
  done : m'.done = m.done
  group : m'.group = dead ++ m.group
  count : m'.count = dead.length + m.count
  opened : ∀ x, x ∉ dead → m'.unfinished.get? x =
    (m.unfinished.get? x).map fun u => ⟨dead.length + u.number, u.part⟩
  dead : ∀ x ∈ dead, ¬ key x ∧ ∃ i, m'.unfinished.get? x = some ⟨i, ∅⟩
  live : ∀ x ∈ m.group, key x

namespace Above

theorem not_dead (h : Above key dead m m') (hn : key n) : n ∉ dead :=
  fun hmem => (h.dead n hmem).1 hn

theorem part?_eq (h : Above key dead m m') (hn : key n) : m'.part? n = m.part? n := by
  rw [part?, h.opened n (h.not_dead hn), part?, Option.map_map]
  rfl

theorem drop_eq (h : Above key dead m m') (mark : Nat) :
    m'.group.drop (dead.length + mark) = m.group.drop mark := by
  rw [h.group, List.drop_append, List.drop_eq_nil_of_le (by omega), Nat.add_sub_cancel_left,
    List.nil_append]

theorem length_eq (h : Above key dead m m') : m'.group.length = dead.length + m.group.length := by
  rw [h.group, List.length_append]

theorem start (h : Above key dead m m') (hn : key n) :
    Above key dead (m.start n) (m'.start n) where
  kind := h.kind
  done := h.done
  group := by rw [start_group, start_group, h.group, List.append_assoc]
  count := by rw [start_count, start_count, h.count, Nat.add_assoc]
  opened := by
    intro x hx
    rw [get?_start, get?_start, h.count, h.opened x hx]
    split <;> rfl
  dead := by
    intro x hx
    have hxn : x ≠ n := fun e => h.not_dead hn (e ▸ hx)
    rw [get?_start, if_neg hxn]
    exact h.dead x hx
  live := by
    intro x hx
    rcases List.mem_append.1 hx with hx | hx
    · exact h.live x hx
    · rwa [List.mem_singleton.1 hx]

theorem grow (h : Above key dead m m') (hn : key n) (A : SymbolSet) :
    Above key dead (m.grow n A) (m'.grow n A) where
  kind := by rw [grow_kind, grow_kind, h.kind]
  done := by rw [grow_done, grow_done, h.done]
  group := by rw [grow_group, grow_group, h.group]
  count := by rw [grow_count, grow_count, h.count]
  opened := by
    intro x hx
    rw [get?_grow, get?_grow, h.opened x hx, Option.map_map, Option.map_map]
    congr 1
    funext u
    by_cases hxn : x = n <;> simp [hxn]
  dead := by
    intro x hx
    obtain ⟨hkey, i, hi⟩ := h.dead x hx
    have hxn : x ≠ n := fun e => h.not_dead hn (e ▸ hx)
    exact ⟨hkey, i, by rw [get?_grow, hi, Option.map_some, if_neg hxn]⟩
  live := by
    rw [grow_group]
    exact h.live

theorem take (h : Above key dead m m') (mark : Nat) :
    Above key dead { m with group := m.group.take mark }
      { m' with group := m'.group.take (dead.length + mark) } where
  kind := h.kind
  done := h.done
  group := by
    show m'.group.take _ = dead ++ m.group.take mark
    rw [h.group, List.take_append, List.take_of_length_le (by omega), Nat.add_sub_cancel_left]
  count := h.count
  opened := h.opened
  dead := h.dead
  live x hx := h.live x (List.take_subset mark _ hx)

theorem complete (h : Above key dead m m') (hn : key n) (A : SymbolSet) :
    Above key dead (m.complete n A) (m'.complete n A) where
  kind := h.kind
  done := congrArg (·.set n A) h.done
  group := h.group
  count := h.count
  opened := by
    intro x hx
    show (m'.unfinished.erase n).get? x = ((m.unfinished.erase n).get? x).map _
    rw [Keyed.get?_erase, Keyed.get?_erase, h.opened x hx]
    split <;> rfl
  dead := by
    intro x hx
    have hxn : x ≠ n := fun e => h.not_dead hn (e ▸ hx)
    show _ ∧ ∃ i, (m'.unfinished.erase n).get? x = _
    rw [Keyed.get?_erase, if_neg hxn]
    exact h.dead x hx
  live := h.live

end Above

end Memo

/-! ### Lockstep -/

variable {ι σ α β γ δ : Type}

/-- Surroundings that are related stay so when both take down events which say the same in a log. -/
def Mirrors [Recorder σ] (R : σ → σ → Prop) : Prop :=
  ∀ (e e' : Event) (a a' : σ), e.logLine? = e'.logLine? → R a a' →
    R (Recorder.record e a) (Recorder.record e' a')

/-- The same session above the symbols of `dead`. -/
structure Session.Above (key : Symbol → Prop) (dead : List Symbol) (R : σ → σ → Prop)
    (s s' : Session σ) : Prop where
  memo : s.memo.Above key dead s'.memo
  around : R s.around s'.around

theorem Session.above_mirrors [Recorder σ] {key : Symbol → Prop} {dead : List Symbol}
    {R : σ → σ → Prop} (hR : Mirrors R) : Mirrors (Session.Above key dead R) :=
  fun e e' _ _ he h => ⟨h.memo, hR e e' _ _ he h.around⟩

namespace Solve

/-- Both computations gave related results, or failed in the same way. -/
inductive Alike (S : Session σ → Session σ → Prop) (Q : α → β → Prop) :
    Except Error α × Session σ → Except Error β × Session σ → Prop
  | ok {a : α} {b : β} {s s' : Session σ} : Q a b → S s s' → Alike S Q (.ok a, s) (.ok b, s')
  | error (e : Error) {s s' : Session σ} : S s s' → Alike S Q (.error e, s) (.error e, s')

/-- From related sessions, `x` and `y` come to related ends. -/
def Lockstep (S : Session σ → Session σ → Prop) (Q : α → β → Prop) (x : Solve σ α)
    (y : Solve σ β) : Prop :=
  ∀ s s', S s s' → Alike S Q (x s) (y s')

namespace Lockstep

variable {S : Session σ → Session σ → Prop} {Q : α → β → Prop} {P : γ → δ → Prop}

theorem pure {a : α} {b : β} (h : Q a b) :
    Lockstep S Q (pure a : Solve σ α) (pure b : Solve σ β) :=
  fun _ _ hs => .ok h hs

theorem throw (e : Error) : Lockstep S Q (throw e : Solve σ α) (throw e : Solve σ β) :=
  fun _ _ hs => .error e hs

theorem bind {x : Solve σ α} {y : Solve σ β} {f : α → Solve σ γ} {f' : β → Solve σ δ}
    (h : Lockstep S Q x y) (hf : ∀ a b, Q a b → Lockstep S P (f a) (f' b)) :
    Lockstep S P (x >>= f) (y >>= f') := by
  intro s s' hs
  have hxy := h s s' hs
  rw [bind_apply, bind_apply]
  generalize x s = r at hxy
  generalize y s' = r' at hxy
  cases hxy with
  | ok hab hs₁ => exact hf _ _ hab _ _ hs₁
  | error e hs₁ => exact .error e hs₁

/-- What gives nothing is followed by what comes next. -/
theorem next {x y : Solve σ Unit} {f : Unit → Solve σ γ} {f' : Unit → Solve σ δ}
    (h : Lockstep S Eq x y) (hf : Lockstep S P (f ()) (f' ())) :
    Lockstep S P (x >>= f) (y >>= f') :=
  h.bind fun _ _ _ => hf

theorem forM {x : α → Solve σ Unit} {as : List α} (h : ∀ a ∈ as, Lockstep S Eq (x a) (x a)) :
    Lockstep S Eq (as.forM x) (as.forM x) := by
  induction as with
  | nil => exact pure rfl
  | cons a as ih =>
    rw [List.forM_eq_forM, List.forM_cons]
    exact (h a (by simp)).next (ih fun b hb => h b (by simp [hb]))

theorem foldlM {f f' : β → α → Solve σ β} {as : List α}
    (h : ∀ a ∈ as, ∀ b, Lockstep S Eq (f b a) (f' b a)) (b : β) :
    Lockstep S Eq (as.foldlM f b) (as.foldlM f' b) := by
  induction as generalizing b with
  | nil => exact pure rfl
  | cons a as ih =>
    refine (h a (by simp) b).bind ?_
    rintro c _ rfl
    exact ih (fun a ha => h a (by simp [ha])) c

end Lockstep

/-! ### The parts of a computation -/

section

variable {key : Symbol → Prop} {dead : List Symbol} {R : σ → σ → Prop} {n : Symbol}

theorem memo_lockstep : Lockstep (Session.Above key dead R) (Memo.Above key dead) memo memo :=
  fun _ _ hs => .ok hs.memo hs

theorem changeMemo_lockstep {f f' : Memo → Memo}
    (h : ∀ m m', Memo.Above key dead m m' → Memo.Above key dead (f m) (f' m')) :
    Lockstep (Session.Above key dead R) Eq (changeMemo f) (changeMemo f') :=
  fun _ _ hs => .ok rfl ⟨h _ _ hs.memo, hs.around⟩

theorem grow_lockstep (hn : key n) (A : SymbolSet) :
    Lockstep (Session.Above key dead R) Eq (grow n A) (grow n A) :=
  changeMemo_lockstep fun _ _ h => h.grow hn A

theorem part_lockstep (hn : key n) :
    Lockstep (Session.Above key dead R) Eq (part n) (part n) := by
  intro s s' hs
  rw [part_apply, part_apply, hs.memo.part?_eq hn]
  cases s.memo.part? n with
  | some A => exact .ok rfl hs
  | none => exact .error _ hs

theorem doneSet_lockstep (n : Symbol) :
    Lockstep (Session.Above key dead R) Eq (doneSet n) (doneSet n) := by
  intro s s' hs
  rw [doneSet_apply, doneSet_apply, hs.memo.done]
  cases s.memo.done.get? n with
  | some A => exact .ok rfl hs
  | none => exact .error _ hs

variable [Recorder σ] (hR : Mirrors R)

include hR

theorem record_lockstep {e e' : SetKind → Event}
    (he : ∀ kind, (e kind).logLine? = (e' kind).logLine?) :
    Lockstep (Session.Above key dead R) Eq (record e) (record e') := by
  intro s s' hs
  refine .ok rfl ⟨hs.memo, hR _ _ _ _ ?_ hs.around⟩
  rw [hs.memo.kind]
  exact he _

theorem close_lockstep (mark : Nat) :
    Lockstep (Session.Above key dead R) Eq (close mark) (close (dead.length + mark)) := by
  refine memo_lockstep.bind fun m m' hm => ?_
  dsimp only
  rw [hm.drop_eq]
  refine (changeMemo_lockstep fun _ _ h => h.take mark).next ?_
  refine (record_lockstep hR fun _ => rfl).next (Lockstep.forM fun n hn => ?_)
  have hkey := hm.live n (List.drop_subset mark _ hn)
  refine (part_lockstep hkey).bind ?_
  rintro A _ rfl
  exact (changeMemo_lockstep fun _ _ h => h.complete hkey A).next (record_lockstep hR fun _ => rfl)

/-! ### Equations -/

/-- Scripts that ask for keys only. -/
def keyBounds (key : Symbol → Prop) (input : ι → Prop) : Bounds ι :=
  ⟨key, fun _ => Set.univ, input, fun _ _ => True⟩

/-- Answers that differ in their numbers. -/
def Raised (dead : List Symbol) (a b : Answer) : Prop := b = a.raise dead.length

variable {input : ι → Prop} {call : ι → Solve σ SymbolSet} {script : Symbol → Script ι}
  {ask ask' : Ask σ}
  (hscript : ∀ n, key n → (script n).Within (keyBounds key input) Set.univ)
  (hcall : ∀ i, input i → Lockstep (Session.Above key dead R) Eq (call i) (call i))
  (hask : ∀ n, key n → Lockstep (Session.Above key dead R) (Raised dead) (ask n) (ask' n))

include hcall hask

omit hR [Recorder σ] in
theorem play_lockstep (emit emit' : SymbolSet → Solve σ Unit)
    (hemit : ∀ A, Lockstep (Session.Above key dead R) Eq (emit A) (emit' A)) {p : Script ι}
    (hp : p.Within (keyBounds key input) Set.univ) (sum : Answer) :
    Lockstep (Session.Above key dead R) (Raised dead) (p.play call ask emit sum)
      (p.play call ask' emit' (sum.raise dead.length)) := by
  induction p generalizing sum with
  | done => exact Lockstep.pure rfl
  | fail e => exact hp.elim
  | emit A p ih =>
    have hnext := ih hp.2 (sum.join ⟨A, .settled⟩)
    rw [Answer.raise_join] at hnext
    exact (hemit A).next hnext
  | ask n k ih =>
    refine (hask n hp.1).bind ?_
    rintro a _ rfl
    have hnext := ih a.set (hp.2 a.set (Set.subset_univ _)) (sum.join ⟨∅, a.low⟩)
    rw [Answer.raise_join] at hnext
    exact hnext
  | call i k ih =>
    refine (hcall i hp.1).bind ?_
    rintro A _ rfl
    exact ih A (hp.2 A trivial) sum

include hscript

theorem recompute_lockstep (first : Nat) (hn : key n) :
    Lockstep (Session.Above key dead R) Eq
      (recompute (Script.equation call script) ask first n)
      (recompute (Script.equation call script) ask' (dead.length + first) n) := by
  have hplay := play_lockstep hcall hask (fun _ => pure ()) (fun _ => pure ())
    (fun _ => Lockstep.pure rfl) (hscript n hn) ∅
  refine hplay.bind ?_
  rintro a _ rfl
  refine Lockstep.next (record_lockstep hR fun _ => rfl) ?_
  refine (part_lockstep hn).bind ?_
  rintro A _ rfl
  rw [Answer.raise_set]
  split
  · exact Lockstep.pure rfl
  · exact (grow_lockstep hn a.set).next (Lockstep.pure rfl)

theorem pass_lockstep (first mark : Nat) : Lockstep (Session.Above key dead R) Eq
    (pass (Script.equation call script) ask first mark)
    (pass (Script.equation call script) ask' (dead.length + first) (dead.length + mark)) := by
  refine memo_lockstep.bind fun m m' hm => ?_
  dsimp only
  rw [hm.drop_eq]
  refine Lockstep.foldlM (fun n hn grown => ?_) false
  have hkey := hm.live n (List.drop_subset mark _ hn)
  refine (recompute_lockstep hR hscript hcall hask first hkey).bind ?_
  rintro g _ rfl
  exact Lockstep.pure rfl

theorem settle_lockstep (first mark passes : Nat) : Lockstep (Session.Above key dead R) Eq
    (settle (Script.equation call script) ask first mark passes)
    (settle (Script.equation call script) ask' (dead.length + first) (dead.length + mark)
      passes) := by
  induction passes with
  | zero => exact Lockstep.throw _
  | succ passes ih =>
    refine memo_lockstep.bind fun m m' hm => ?_
    refine (pass_lockstep hR hscript hcall hask first mark).bind ?_
    rintro grown _ rfl
    refine memo_lockstep.bind fun m₁ m₁' hm₁ => ?_
    simp only [hm.length_eq, hm₁.length_eq, Nat.add_lt_add_iff_left]
    split
    · exact ih
    · exact Lockstep.pure rfl

theorem enter_lockstep (passes : Nat) (hn : key n) :
    Lockstep (Session.Above key dead R) (Raised dead)
      (enter (Script.equation call script) passes ask n)
      (enter (Script.equation call script) passes ask' n) := by
  refine memo_lockstep.bind fun m m' hm => ?_
  refine (changeMemo_lockstep fun _ _ h => h.start hn).next ?_
  refine Lockstep.next (record_lockstep hR fun _ => rfl) ?_
  have hplay := play_lockstep hcall hask _ _ (grow_lockstep hn) (hscript n hn) ∅
  refine hplay.bind ?_
  rintro a _ rfl
  -- both ways to go on, settling the group or not, end by closing it
  have hclose : Lockstep (Session.Above key dead R) (Raised dead)
      (close m.group.length >>= fun _ => doneSet n >>= fun A => pure (Answer.mk A .settled))
      (close m'.group.length >>= fun _ => doneSet n >>= fun A => pure (Answer.mk A .settled)) := by
    rw [hm.length_eq]
    refine (close_lockstep hR _).next ((doneSet_lockstep n).bind ?_)
    rintro A _ rfl
    exact Lockstep.pure rfl
  simp only [hm.count, Answer.raise_low, Low.below_raise]
  split
  · refine (part_lockstep hn).bind ?_
    rintro A _ rfl
    exact Lockstep.pure rfl
  · refine memo_lockstep.bind fun m₁ m₁' hm₁ => ?_
    have hsize : m₁'.group.length - m'.group.length = m₁.group.length - m.group.length := by
      rw [hm₁.length_eq, hm.length_eq, Nat.add_sub_add_left]
    simp only [hsize, ne_eq, Low.raise_eq_settled]
    split
    · refine (record_lockstep hR fun _ => rfl).next ?_
      have hsettle := settle_lockstep hR hscript hcall hask m.count m.group.length passes
      rw [← hm.length_eq] at hsettle
      exact hsettle.next hclose
    · exact hclose

omit hask in
/-- Keys are answered alike, with raised numbers. -/
theorem ask_lockstep (passes depth : Nat) (hn : key n) :
    Lockstep (Session.Above key dead R) (Raised dead)
      (Solve.ask (Script.equation call script) passes depth n)
      (Solve.ask (Script.equation call script) passes depth n) := by
  have hconsult : ∀ {n} {x : Solve σ Answer}, key n →
      Lockstep (Session.Above key dead R) (Raised dead) x x →
      Lockstep (Session.Above key dead R) (Raised dead) (consult n x) (consult n x) := by
    intro n x hn hx
    refine memo_lockstep.bind fun m m' hm => ?_
    rw [hm.done, hm.opened n (hm.not_dead hn)]
    cases m.done.get? n with
    | some A => exact Lockstep.pure rfl
    | none =>
      cases m.unfinished.get? n with
      | some u => exact (record_lockstep hR fun _ => rfl).next (Lockstep.pure rfl)
      | none => exact hx
  induction depth generalizing n with
  | zero => exact hconsult hn (Lockstep.throw _)
  | succ depth ih => exact hconsult hn (enter_lockstep hR hscript hcall (fun _ => ih) passes hn)

omit hR hscript hcall hask [Recorder σ] in
theorem within_lockstep {dead' : List Symbol} {Q : α → β → Prop} {x : Solve σ α} {y : Solve σ β}
    (h : Lockstep (Session.Above key dead R) Q x y) :
    Lockstep (Session.Above key dead' (Session.Above key dead R)) Q (within x) (within y) := by
  intro s s' hs
  have hxy := h s.around s'.around hs.around
  show Alike _ Q ((x s.around).1, _) ((y s'.around).1, _)
  generalize x s.around = r at hxy
  generalize y s'.around = r' at hxy
  cases hxy with
  | ok hab h' => exact .ok hab ⟨hs.memo, h'⟩
  | error e h' => exact .error e ⟨hs.memo, h'⟩

end

end Solve

/-! ### FIRST and FOLLOW -/

section

open Solve

variable {g : Grammar} {b : Budget} {n : Symbol} {d : Derivation} {dead dead' : List Symbol}
  [Recorder σ] {R : σ → σ → Prop}

theorem firstScript_within_keys {input : Empty → Prop} (hn : n ∈ g) :
    (firstScript g n).Within (keyBounds (· ∈ g) input) Set.univ := by
  obtain ⟨ds, hds⟩ := Grammar.lookup_ok rfl hn
  rw [firstScript_of_derivations hds]
  apply Script.alternatives_within
  · intro d hd s hs hnt
    have hderives : g.Derives n d := ⟨ds, hds, hd⟩
    exact hderives.mem_of_nonterminal hs hnt
  · exact fun _ _ => Set.subset_univ _

theorem followScript_within_keys {every : Bool} (hn : n ∈ g) :
    (followScript g (g.occurrenceIndex every) n).Within
      (keyBounds (· ∈ g) fun d => ∀ t ∈ d, t.isNonterminal → t ∈ g) Set.univ := by
  apply followScript_within_of hn
  · exact fun _ => Set.mem_univ _
  · exact fun _ hm => hm
  · exact fun o ho t ht => ho.derives.mem_of_nonterminal (ho.suffix_subset ht)
  · exact fun _ _ _ _ => Set.subset_univ _
  · exact fun _ _ _ => Set.subset_univ _

theorem firstOf_lockstep (hR : Mirrors R) (hn : n ∈ g) :
    Lockstep (Session.Above (· ∈ g) dead R) (Raised dead) (firstOf g b n) (firstOf g b n) := by
  rw [firstOf, firstEquation_eq]
  have hscript : ∀ n, n ∈ g →
      (firstScript g n).Within (keyBounds (· ∈ g) fun _ => True) Set.univ :=
    fun _ => firstScript_within_keys
  exact ask_lockstep hR hscript (fun i _ => i.elim) b.passes b.depth hn

theorem scan_lockstep (hR : Mirrors R) (hd : ∀ t ∈ d, t.isNonterminal → t ∈ g) :
    Lockstep (Session.Above (· ∈ g) dead R) (Raised dead) (scan (firstOf g b) d)
      (scan (firstOf g b) d) := by
  induction d with
  | nil => exact Lockstep.pure rfl
  | cons s rest ih =>
    cases s with
    | nonterminal name =>
      refine (firstOf_lockstep hR (hd _ (by simp) rfl)).bind ?_
      rintro a _ rfl
      rw [Answer.raise_set]
      split
      · refine (ih fun t ht => hd t (by simp [ht])).bind ?_
        rintro c _ rfl
        exact Lockstep.pure (Answer.raise_join _ ⟨a.set.erase .epsilon, a.low⟩ c).symm
      · exact Lockstep.pure rfl
    | _ => exact Lockstep.pure rfl

theorem firstOfSequence_lockstep (hR : Mirrors R) (hd : ∀ t ∈ d, t.isNonterminal → t ∈ g) :
    Lockstep (Session.Above (· ∈ g) dead R) Eq (firstOfSequence g b d) (firstOfSequence g b d) := by
  refine (scan_lockstep hR hd).bind ?_
  rintro a _ rfl
  exact Lockstep.pure rfl

theorem followOf_lockstep (hR : Mirrors R) {every : Bool} (hn : n ∈ g) :
    Lockstep (Session.Above (· ∈ g) dead' (Session.Above (· ∈ g) dead R)) (Raised dead')
      (followOf g (g.occurrenceIndex every) b n) (followOf g (g.occurrenceIndex every) b n) := by
  rw [followOf, followEquation_eq]
  exact ask_lockstep (Session.above_mirrors hR) (fun _ => followScript_within_keys)
    (fun d hd => within_lockstep (firstOfSequence_lockstep hR hd)) b.passes b.depth hn

theorem Builder.followSet_lockstep {R : Trace → Trace → Prop} (hR : Mirrors R) (every : Bool)
    (hn : n ∈ g) :
    Lockstep (Session.Above (· ∈ g) dead' (Session.Above (· ∈ g) dead R)) Eq
      (followSet g (g.occurrenceIndex every) b n) (followSet g (g.occurrenceIndex every) b n) := by
  refine (followOf_lockstep hR hn).bind ?_
  rintro a _ rfl
  exact Lockstep.pure rfl

end

end FirstFollow
