import FirstFollow.Equations
import Mathlib.Data.Finset.Card
import Mathlib.Order.FixedPoints
import Mathlib.Order.CompletePartialOrder

/-!
The least sets that satisfy the equations of FIRST and FOLLOW, apart from any computation, and the
finitely many symbols that they are made of.
-/

namespace FirstFollow

namespace Keyed

variable {κ ν : Type} [DecidableEq κ]

theorem get?_eq_some_iff {a : Keyed κ ν} {k : κ} {v : ν} :
    a.get? k = some v ↔ (k, v) ∈ a.entries := by
  obtain ⟨entries, hnodup⟩ := a
  show find? k entries = some v ↔ (k, v) ∈ entries
  induction entries with
  | nil => simp [find?]
  | cons e rest ih =>
    obtain ⟨k', v'⟩ := e
    obtain ⟨hnot, hrest⟩ := List.nodup_cons.1 hnodup
    by_cases hk : k' = k
    · subst hk
      simp only [find?, if_true, Option.some.injEq, List.mem_cons, Prod.mk.injEq, true_and]
      constructor
      · rintro rfl
        exact .inl rfl
      · rintro (rfl | hmem)
        · rfl
        · exact absurd (List.mem_map_of_mem (f := Prod.fst) hmem) hnot
    · have hk' : k ≠ k' := fun h => hk h.symm
      simp [find?, hk, hk', ih hrest]

theorem get?_map {μ : Type} (f : κ → ν → μ) (a : Keyed κ ν) (k : κ) :
    (a.map f).get? k = (a.get? k).map (f k) := by
  show find? k (a.entries.map fun e => (e.1, f e.1 e.2)) = _
  rw [get?]
  induction a.entries with
  | nil => rfl
  | cons e es ih =>
    rw [List.map_cons, find?, find?, ih]
    split
    next h => rw [h]; rfl
    next => rfl

end Keyed

/-! ### Sequences -/

/-- What a sequence can begin with when `F` tells what nonterminals can begin with. -/
def scanSet (F : Symbol → Set Symbol) : Derivation → Set Symbol
  | [] => {.epsilon}
  | .nonterminal name :: rest =>
    F (.nonterminal name) \ {.epsilon} ∪
      {a | .epsilon ∈ F (.nonterminal name) ∧ a ∈ scanSet F rest}
  | s :: _ => {s}

theorem scanSet_mono {F F' : Symbol → Set Symbol} (h : F ≤ F') (d : Derivation) :
    scanSet F d ⊆ scanSet F' d := by
  induction d with
  | nil => exact subset_rfl
  | cons s rest ih =>
    cases s with
    | nonterminal name =>
      unfold scanSet
      apply Set.union_subset_union
      · exact Set.sdiff_subset_sdiff_left (h _)
      · exact fun a ha => ⟨h _ ha.1, ih ha.2⟩
    | _ => exact subset_rfl

/-- A scan finds symbols of the sequence, symbols of the sets that it looks at, and `epsilon`. -/
theorem scanSet_subset {F : Symbol → Set Symbol} {U : Set Symbol} (hepsilon : .epsilon ∈ U)
    {d : Derivation} (hd : ∀ s ∈ d, if s.isNonterminal then F s ⊆ U else s ∈ U) :
    scanSet F d ⊆ U := by
  induction d with
  | nil => simpa [scanSet] using hepsilon
  | cons s rest ih =>
    have hs := hd s (by simp)
    have hrest := ih fun t ht => hd t (by simp [ht])
    cases s with
    | nonterminal name =>
      unfold scanSet
      apply Set.union_subset
      · exact Set.sdiff_subset.trans (by simpa [Symbol.isNonterminal] using hs)
      · exact fun a ha => hrest ha.2
    | _ => simpa [scanSet, Symbol.isNonterminal] using hs

/-- `m` stands in `d` behind nothing but nonterminals that can vanish. -/
def Starts (F : Symbol → Set Symbol) (d : Derivation) (m : Symbol) : Prop :=
  m.isNonterminal ∧ ∃ before after, d = before ++ m :: after ∧
    ∀ s ∈ before, s.isNonterminal ∧ .epsilon ∈ F s

theorem starts_nil {F : Symbol → Set Symbol} {m : Symbol} : ¬ Starts F [] m := by
  simp [Starts]

theorem starts_cons {F : Symbol → Set Symbol} {s m : Symbol} {rest : Derivation} :
    Starts F (s :: rest) m ↔ s.isNonterminal ∧ (m = s ∨ .epsilon ∈ F s ∧ Starts F rest m) := by
  constructor
  · rintro ⟨hm, before, after, hd, hbefore⟩
    cases before with
    | nil =>
      obtain ⟨rfl, rfl⟩ := List.cons.inj hd
      exact ⟨hm, .inl rfl⟩
    | cons t before =>
      obtain ⟨rfl, rfl⟩ := List.cons.inj hd
      obtain ⟨hs, hε⟩ := hbefore s (by simp)
      exact ⟨hs, .inr ⟨hε, hm, before, after, rfl, fun t ht => hbefore t (by simp [ht])⟩⟩
  · rintro ⟨hs, rfl | ⟨hε, hm, before, after, rfl, hbefore⟩⟩
    · exact ⟨hs, [], rest, rfl, by simp⟩
    · refine ⟨hm, s :: before, after, rfl, fun t ht => ?_⟩
      rcases List.mem_cons.1 ht with rfl | ht
      · exact ⟨hs, hε⟩
      · exact hbefore t ht

namespace Grammar

variable {g : Grammar} {every : Bool} {n m : Symbol} {d : Derivation} {o : Occurrence}
  {F F' G : Symbol → Set Symbol}

/-! ### Alternatives and occurrences -/

def Derives (g : Grammar) (n : Symbol) (d : Derivation) : Prop :=
  ∃ ds, g.derivations n = .ok ds ∧ d ∈ ds

/-- `o` is an occurrence of `n` that counts. -/
def Occurs (g : Grammar) (every : Bool) (n : Symbol) (o : Occurrence) : Prop :=
  ∃ os, g.occurrencesOf n every = .ok os ∧ o ∈ os

theorem lookup_eq_ok_iff {ν : Type} {table : Keyed String ν} {v : ν} :
    lookup table n = .ok v ↔ ∃ name, n = .nonterminal name ∧ table.get? name = some v := by
  cases n with
  | nonterminal name => cases hv : table.get? name <;> simp [lookup, hv]
  | _ => simp [lookup]

theorem lookup_ok {ν : Type} {table : Keyed String ν} (hkeys : table.keys = g.productions.keys)
    (hn : n ∈ g) : ∃ v, lookup table n = .ok v := by
  obtain ⟨name, hname, rfl⟩ := mem_iff.1 hn
  have hmem : name ∈ table := by rwa [Keyed.mem_def, hkeys]
  obtain ⟨v, hv⟩ := Option.isSome_iff_exists.1 (Keyed.get?_isSome_iff.2 hmem)
  exact ⟨v, lookup_eq_ok_iff.2 ⟨name, rfl, hv⟩⟩

theorem mem_of_get? {name : String} {ds : List Derivation}
    (h : g.productions.get? name = some ds) : .nonterminal name ∈ g := by
  refine mem_iff.2 ⟨name, Keyed.get?_isSome_iff.1 ?_, rfl⟩
  simp [h]

theorem derives_iff : g.Derives n d ↔ ∃ r ∈ g.rules, r.lhs = n ∧ r.derivation = d := by
  simp only [Derives, derivations, lookup_eq_ok_iff, rules, List.mem_flatMap, List.mem_map]
  constructor
  · rintro ⟨ds, ⟨name, rfl, hds⟩, hd⟩
    exact ⟨⟨name, d⟩, ⟨(name, ds), Keyed.get?_eq_some_iff.1 hds, d, hd, rfl⟩, rfl, rfl⟩
  · rintro ⟨r, ⟨⟨name, ds⟩, he, d', hd', rfl⟩, rfl, rfl⟩
    exact ⟨ds, ⟨name, rfl, Keyed.get?_eq_some_iff.2 he⟩, hd'⟩

theorem Derives.mem (h : g.Derives n d) : n ∈ g := by
  obtain ⟨ds, hds, -⟩ := h
  obtain ⟨name, rfl, hname⟩ := lookup_eq_ok_iff.1 hds
  exact mem_of_get? hname

theorem Derives.mem_of_nonterminal (h : g.Derives n d) (hm : m ∈ d) (hn : m.isNonterminal) :
    m ∈ g := by
  obtain ⟨ds, hds, hd⟩ := h
  obtain ⟨name, rfl, hname⟩ := lookup_eq_ok_iff.1 hds
  obtain ⟨name', rfl⟩ := Symbol.isNonterminal_iff.1 hn
  have hclosed := g.closed _ (Keyed.get?_eq_some_iff.1 hname) d hd _ hm
  exact mem_iff.2 ⟨name', hclosed, rfl⟩

theorem Derives.mentioned (h : g.Derives n d) (hm : m ∈ d) : m ∈ g.mentioned := by
  obtain ⟨r, hr, -, rfl⟩ := derives_iff.1 h
  exact List.mem_flatMap.2 ⟨r, hr, hm⟩

end Grammar

theorem Rule.mem_occurrences {r : Rule} {every : Bool} {seen : List String} {d : Derivation}
    {name : String} {o : Occurrence} (h : (name, o) ∈ r.occurrences every seen d) :
    o.rule = r ∧ ∃ before, d = before ++ .nonterminal name :: o.suffix := by
  induction d generalizing seen with
  | nil => simp [occurrences] at h
  | cons s rest ih =>
    have hcons : (∃ seen, (name, o) ∈ r.occurrences every seen rest) →
        o.rule = r ∧ ∃ before, s :: rest = before ++ .nonterminal name :: o.suffix := by
      rintro ⟨seen', h'⟩
      obtain ⟨hr, before, rfl⟩ := ih h'
      exact ⟨hr, s :: before, rfl⟩
    cases s with
    | nonterminal name' =>
      unfold occurrences at h
      split at h
      · rcases List.mem_cons.1 h with h | h
        · obtain ⟨rfl, rfl⟩ := Prod.mk.inj h
          exact ⟨rfl, [], rfl⟩
        · exact hcons ⟨_, h⟩
      · exact hcons ⟨_, h⟩
    | _ => exact hcons ⟨_, h⟩

namespace Grammar

variable {g : Grammar} {every : Bool} {n m : Symbol} {d : Derivation} {o : Occurrence}
  {F F' G : Symbol → Set Symbol}

theorem occurrencesOf_eq_ok_iff {os : List Occurrence} :
    g.occurrencesOf n every = .ok os ↔ ∃ name, n = .nonterminal name ∧ n ∈ g ∧
      os = (g.allOccurrences every).filterMap fun o => if o.1 = name then some o.2 else none := by
  rw [occurrencesOf, lookup_eq_ok_iff]
  simp only [occurrenceIndex, Keyed.get?_map, Option.map_eq_some_iff]
  constructor
  · rintro ⟨name, rfl, ds, hds, rfl⟩
    exact ⟨name, rfl, mem_of_get? hds, rfl⟩
  · rintro ⟨name, rfl, hn, rfl⟩
    obtain ⟨ds, hds⟩ := lookup_ok (g := g) rfl hn
    obtain ⟨_, hname, hds⟩ := lookup_eq_ok_iff.1 hds
    cases hname
    exact ⟨name, rfl, ds, hds, rfl⟩

theorem occurs_iff : g.Occurs every n o ↔ n ∈ g ∧ ∃ name, n = .nonterminal name ∧
    ∃ r ∈ g.rules, (name, o) ∈ r.occurrences every [] r.derivation := by
  have hmem : ∀ name, o ∈ ((g.allOccurrences every).filterMap
      fun o => if o.1 = name then some o.2 else none) ↔
        ∃ r ∈ g.rules, (name, o) ∈ r.occurrences every [] r.derivation := by
    intro name
    simp only [allOccurrences, List.mem_filterMap, List.mem_flatMap, Option.ite_none_right_eq_some,
      Option.some.injEq, Prod.exists]
    constructor
    · rintro ⟨name', o', hr, rfl, rfl⟩
      exact hr
    · intro hr
      exact ⟨name, o, hr, rfl, rfl⟩
  constructor
  · rintro ⟨os, hos, ho⟩
    obtain ⟨name, hname, hn, rfl⟩ := occurrencesOf_eq_ok_iff.1 hos
    exact ⟨hn, name, hname, (hmem name).1 ho⟩
  · rintro ⟨hn, name, hname, hr⟩
    exact ⟨_, occurrencesOf_eq_ok_iff.2 ⟨name, hname, hn, rfl⟩, (hmem name).2 hr⟩

theorem Occurs.derives (h : g.Occurs every n o) : g.Derives o.producer o.derivation := by
  obtain ⟨-, name, -, r, hr, ho⟩ := occurs_iff.1 h
  obtain ⟨rfl, -⟩ := Rule.mem_occurrences ho
  exact derives_iff.2 ⟨o.rule, hr, rfl, rfl⟩

theorem Occurs.suffix_subset (h : g.Occurs every n o) : o.suffix ⊆ o.derivation := by
  obtain ⟨-, name, -, r, hr, ho⟩ := occurs_iff.1 h
  obtain ⟨rfl, before, hd⟩ := Rule.mem_occurrences ho
  intro s hs
  show s ∈ o.rule.derivation
  rw [hd]
  simp [hs]

/-! ### The sets -/

/-- What the alternatives of each nonterminal can begin with. -/
def firstOperator (g : Grammar) : (Symbol → Set Symbol) →o (Symbol → Set Symbol) where
  toFun F n := {a | ∃ d, g.Derives n d ∧ a ∈ scanSet F d}
  monotone' := fun _ _ h _ _ ⟨d, hd, ha⟩ => ⟨d, hd, scanSet_mono h d ha⟩

/-- FIRST of each nonterminal. -/
def firstSets (g : Grammar) : Symbol → Set Symbol := g.firstOperator.lfp

/-- What can come after each nonterminal when `F` tells what nonterminals can begin with: the end
behind the start symbol, and for each occurrence what its suffix can begin with and, if that can
vanish, what can come after the producer. -/
def followOperator (g : Grammar) (every : Bool) (F : Symbol → Set Symbol) :
    (Symbol → Set Symbol) →o (Symbol → Set Symbol) where
  toFun G n := {a | n = g.startSymbol ∧ a = .endMarker ∨ ∃ o, g.Occurs every n o ∧
    (a ∈ scanSet F o.suffix \ {.epsilon} ∨
      (o.suffix = [] ∨ .epsilon ∈ scanSet F o.suffix) ∧ a ∈ G o.producer)}
  monotone' := by
    rintro G G' h n a (ha | ⟨o, ho, ha | ⟨hvanish, ha⟩⟩)
    · exact .inl ha
    · exact .inr ⟨o, ho, .inl ha⟩
    · exact .inr ⟨o, ho, .inr ⟨hvanish, h _ ha⟩⟩

/-- FOLLOW of each nonterminal over the FIRST sets `F`. -/
def followSets (g : Grammar) (every : Bool) (F : Symbol → Set Symbol) : Symbol → Set Symbol :=
  (g.followOperator every F).lfp

/-- Some alternative of `n` starts with `m`, but for nonterminals that can vanish. -/
def Begins (g : Grammar) (n m : Symbol) : Prop := ∃ d, g.Derives n d ∧ Starts g.firstSets d m

theorem firstSets_least (h : g.firstOperator F ≤ F) : g.firstSets ≤ F := g.firstOperator.lfp_le h

theorem firstSets_fixed : g.firstOperator g.firstSets = g.firstSets := g.firstOperator.map_lfp

theorem Derives.scanSet_subset (h : g.Derives n d) : scanSet g.firstSets d ⊆ g.firstSets n := by
  intro a ha
  rw [← firstSets_fixed]
  exact ⟨d, h, ha⟩

theorem followSets_least (h : g.followOperator every F G ≤ G) : g.followSets every F ≤ G :=
  (g.followOperator every F).lfp_le h

theorem followSets_fixed :
    g.followOperator every F (g.followSets every F) = g.followSets every F :=
  (g.followOperator every F).map_lfp

theorem firstSets_of_not_mem (hn : n ∉ g) : g.firstSets n = ∅ := by
  rw [← firstSets_fixed]
  ext a
  simp only [Set.mem_empty_iff_false, iff_false]
  rintro ⟨d, hd, -⟩
  exact hn hd.mem

theorem followSets_of_not_mem (hn : n ∉ g) : g.followSets every F n = ∅ := by
  rw [← followSets_fixed]
  ext a
  simp only [Set.mem_empty_iff_false, iff_false]
  rintro (⟨rfl, -⟩ | ⟨o, ho, -⟩)
  · exact hn g.startSymbol_mem
  · exact hn (occurs_iff.1 ho).1

/-! ### What the sets are made of -/

/-- The symbols that FIRST and FOLLOW sets may hold. -/
def symbols (g : Grammar) : Finset Symbol :=
  (OrderedSet.ofList (g.mentioned.filter (!·.isNonterminal))).toList.toFinset ∪
    {.epsilon, .endMarker}

theorem mem_symbols {s : Symbol} : s ∈ g.symbols ↔
    (s ∈ g.mentioned ∧ ¬ s.isNonterminal) ∨ s = .epsilon ∨ s = .endMarker := by
  rw [or_comm]
  simp [symbols, ← OrderedSet.mem_def, or_assoc, -Symbol.isNonterminal_iff]

/-- No pass bound is too small for the sets to settle. -/
theorem room_lt_passes (g : Grammar) :
    g.keys.toFinset.card + g.keys.toFinset.card * g.symbols.card < g.budget.passes := by
  have hkeys : g.keys.toFinset.card ≤ g.productions.size := by
    refine (List.toFinset_card_le _).trans (le_of_eq ?_)
    rw [keys, List.length_map, Keyed.length_keys]
  have hsymbols : g.symbols.card ≤
      (OrderedSet.ofList (g.mentioned.filter (!·.isNonterminal))).size + 2 :=
    (Finset.card_union_le _ _).trans (Nat.add_le_add (List.toFinset_card_le _) Finset.card_le_two)
  have hmul := Nat.mul_le_mul hkeys hsymbols
  simp only [budget]
  omega

theorem scanSet_subset_of {T : Set Symbol} (hε : .epsilon ∈ T)
    (hT : ∀ s ∈ g.mentioned, ¬ s.isNonterminal → s ∈ T) (hd : g.Derives n d) {e : Derivation}
    (he : e ⊆ d) (hF : ∀ m ∈ g, F m ⊆ T) : scanSet F e ⊆ T := by
  refine FirstFollow.scanSet_subset hε fun s hs => ?_
  split
  next hn => exact hF s (hd.mem_of_nonterminal (he hs) hn)
  next hn => exact hT s (hd.mentioned (he hs)) hn

theorem firstSets_subset {T : Set Symbol} (hε : .epsilon ∈ T)
    (hT : ∀ s ∈ g.mentioned, ¬ s.isNonterminal → s ∈ T) (n : Symbol) : g.firstSets n ⊆ T := by
  have hle : g.firstSets ≤ fun _ => T := by
    apply firstSets_least
    rintro m a ⟨d, hd, ha⟩
    exact scanSet_subset_of hε hT hd (List.Subset.refl d) (fun _ _ => subset_rfl) ha
  exact hle n

/-- Of the FIRST sets that it rests on, a FOLLOW set takes all but `epsilon`. -/
theorem followSets_subset {T : Set Symbol} (hend : .endMarker ∈ T)
    (hT : ∀ s ∈ g.mentioned, ¬ s.isNonterminal → s ≠ .epsilon → s ∈ T)
    (hF : ∀ m ∈ g, F m ⊆ insert .epsilon T) (n : Symbol) : g.followSets every F n ⊆ T := by
  have hT' : ∀ s ∈ g.mentioned, ¬ s.isNonterminal → s ∈ insert .epsilon T := fun s hs hn =>
    (em (s = .epsilon)).imp_right (hT s hs hn)
  have hle : g.followSets every F ≤ fun _ => T := by
    apply followSets_least
    rintro m a (⟨-, rfl⟩ | ⟨o, ho, ⟨ha, hne⟩ | ⟨-, ha⟩⟩)
    · exact hend
    · exact (scanSet_subset_of (by simp) hT' ho.derives ho.suffix_subset hF ha).resolve_left hne
    · exact ha
  exact hle n

theorem epsilon_mem_symbols (g : Grammar) : .epsilon ∈ g.symbols := mem_symbols.2 (by simp)

theorem mem_symbols_of_mentioned {s : Symbol} (hs : s ∈ g.mentioned) (hn : ¬ s.isNonterminal) :
    s ∈ g.symbols :=
  mem_symbols.2 (.inl ⟨hs, hn⟩)

theorem scanSet_subset_symbols (hd : g.Derives n d) {e : Derivation} (he : e ⊆ d)
    (hF : ∀ m ∈ g, F m ⊆ g.symbols) : scanSet F e ⊆ g.symbols :=
  scanSet_subset_of g.epsilon_mem_symbols (fun _ => mem_symbols_of_mentioned) hd he hF

theorem firstSets_subset_symbols (g : Grammar) (n : Symbol) : g.firstSets n ⊆ g.symbols :=
  firstSets_subset g.epsilon_mem_symbols (fun _ => mem_symbols_of_mentioned) n

theorem followSets_subset_symbols (hF : ∀ m ∈ g, F m ⊆ g.symbols) (n : Symbol) :
    g.followSets every F n ⊆ g.symbols :=
  followSets_subset (Finset.mem_coe.2 (mem_symbols.2 (by simp)))
    (fun _ hs hn _ => mem_symbols_of_mentioned hs hn)
    (fun m hm => (hF m hm).trans (Set.subset_insert _ _)) n

end Grammar

end FirstFollow
