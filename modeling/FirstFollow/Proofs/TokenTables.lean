import FirstFollow.Proofs.Order
import FirstFollow.Proofs.RoundTrip

/-!
Tables in tokens. Tokens tell the symbols of a grammar that was read from each other, but either
reserved token may stand for nothing, and both may be one. This does no harm, as `endMarker` comes
into FIRST sets only where the grammar mentions it, and `epsilon` does not come into FOLLOW sets
(`Convention.faithful_first`, `Convention.faithful_follow`).
-/

namespace FirstFollow

/-! ### Sets of tokens -/

namespace Convention

variable {c : Convention} {s : Symbol}

/-- Different symbols of `T` have different tokens. -/
structure Faithful (c : Convention) (T : Set Symbol) : Prop where
  token : ∀ s ∈ T, ∃ t, c.token s = .ok t
  injOn : Set.InjOn c.token T

theorem Faithful.mono {T U : Set Symbol} (h : c.Faithful T) (hU : U ⊆ T) : c.Faithful U where
  token s hs := h.token s (hU hs)
  injOn := h.injOn.mono hU

theorem eq_of_symbol_epsilon (h : c.symbol c.epsilon = .ok s) : s = .epsilon := by
  have hclass : c.classify c.epsilon = .epsilon := if_pos rfl
  rw [symbol, hclass] at h
  split at h
  · cases h
  · exact (Except.ok.inj h).symm

theorem eq_of_symbol_endMarker (h : c.symbol c.endMarker = .ok s) :
    s = .epsilon ∨ s = .endMarker := by
  by_cases heq : c.endMarker = c.epsilon
  · exact .inl (eq_of_symbol_epsilon (heq ▸ h))
  · have hclass : c.classify c.endMarker = .endMarker := by rw [classify, if_neg heq, if_pos rfl]
    rw [symbol, hclass] at h
    split at h
    · cases h
    · exact .inr (Except.ok.inj h).symm

theorem Restores.symbol_of_token (h : c.Restores s) {t : String} (ht : c.token s = .ok t) :
    c.symbol t = .ok s := by
  obtain ⟨t', hs, hsymbol⟩ := restores_iff_token.1 h
  obtain rfl := Except.ok.inj (hs.symm.trans ht)
  exact hsymbol

theorem Restores.eq_of_token {s' : Symbol} (h : c.Restores s) (h' : c.Restores s')
    (ht : c.token s = c.token s') : s = s' := by
  obtain ⟨t, hs, hsymbol⟩ := restores_iff_token.1 h
  have hsymbol' := h'.symbol_of_token (ht ▸ hs)
  exact Except.ok.inj (hsymbol.symm.trans hsymbol')

/-- One symbol may be added that is not restored if it shares its token with none that is. -/
theorem faithful_insert {T : Set Symbol} (hT : ∀ s ∈ T, c.Restores s) {t : String}
    (hs : c.token s = .ok t) (hown : ∀ s' ∈ T, c.token s' = c.token s → s' = s) :
    c.Faithful (insert s T) where
  token := by
    rintro x (rfl | hx)
    · exact ⟨t, hs⟩
    · obtain ⟨t', ht', -⟩ := restores_iff_token.1 (hT x hx)
      exact ⟨t', ht'⟩
  injOn := by
    rintro x (rfl | hx) y (rfl | hy) hxy
    · rfl
    · exact (hown y hy hxy.symm).symm
    · exact hown x hx hxy
    · exact (hT x hx).eq_of_token (hT y hy) hxy

/-- What FIRST sets are made of if all symbols of the grammar are restored. -/
def firstAlphabet (c : Convention) : Set Symbol := insert .epsilon {s | c.Restores s}

/-- What FOLLOW sets are made of if all symbols of the grammar are restored. -/
def followAlphabet (c : Convention) : Set Symbol :=
  insert .endMarker {s | c.Restores s ∧ s ≠ .epsilon}

theorem faithful_first (c : Convention) : c.Faithful c.firstAlphabet :=
  faithful_insert (fun _ hs => hs) rfl fun _ hs ht => eq_of_symbol_epsilon (hs.symbol_of_token ht)

theorem faithful_follow (c : Convention) : c.Faithful c.followAlphabet :=
  faithful_insert (fun _ hs => hs.1) rfl fun _ hs ht =>
    (eq_of_symbol_endMarker (hs.1.symbol_of_token ht)).resolve_left hs.2

end Convention

namespace Table

variable {c : Convention} {T : Set Symbol} {A C : SymbolSet} {X : TokenSet}

theorem mem_ofList_tokens {ts : List String}
    (h : List.Forall₂ (fun s t => c.token s = .ok t) A.toList ts) (t : String) :
    t ∈ OrderedSet.ofList ts ↔ ∃ s ∈ A, c.token s = .ok t := by
  rw [OrderedSet.mem_ofList]
  constructor
  · exact fun ht => exists_mem_of_forall₂ h ht
  · rintro ⟨s, hs, ht⟩
    obtain ⟨t', ht', hst⟩ := exists_mem_of_forall₂ h.flip hs
    obtain rfl := Except.ok.inj (ht.symm.trans hst)
    exact ht'

theorem tokenSet_eq_ok_iff : tokenSet c A = .ok X ↔
    ∃ ts, List.Forall₂ (fun s t => c.token s = .ok t) A.toList ts ∧ OrderedSet.ofList ts = X := by
  unfold tokenSet
  split
  next hbare =>
    constructor
    · intro h
      cases h
    · rintro ⟨ts, hts, -⟩
      obtain ⟨t, -, ht⟩ := exists_mem_of_forall₂ hts.flip hbare
      cases ht
  next =>
    simp only [bind_eq_ok_iff, mapM_eq_ok_iff]
    exact exists_congr fun ts => and_congr_right fun _ => ⟨Except.ok.inj, congrArg Except.ok⟩

/-- A set of tokens holds the tokens of all members, and no others. -/
theorem mem_tokenSet (h : tokenSet c A = .ok X) (t : String) :
    t ∈ X ↔ ∃ s ∈ A, c.token s = .ok t := by
  obtain ⟨ts, hts, rfl⟩ := tokenSet_eq_ok_iff.1 h
  exact mem_ofList_tokens hts t

theorem tokenSet_ok (hT : c.Faithful T) (hA : A.toSet ⊆ T) : ∃ X, tokenSet c A = .ok X := by
  obtain ⟨ts, hts⟩ := exists_forall₂_iff.2 fun s hs => hT.token s (hA hs)
  exact ⟨_, tokenSet_eq_ok_iff.2 ⟨ts, hts, rfl⟩⟩

theorem subset_of_tokenSet (hT : c.Faithful T) (hA : A.toSet ⊆ T) (hC : C.toSet ⊆ T)
    (h : tokenSet c A = .ok X) (h' : tokenSet c C = .ok X) : A ⊆ C := by
  intro s hs
  obtain ⟨t, ht⟩ := hT.token s (hA hs)
  obtain ⟨s', hs', ht'⟩ := (mem_tokenSet h' t).1 ((mem_tokenSet h t).2 ⟨s, hs, ht⟩)
  obtain rfl := hT.injOn (hA hs) (hC hs') (ht.trans ht'.symm)
  exact hs'

theorem eq_of_tokenSet (hT : c.Faithful T) (hA : A.toSet ⊆ T) (hC : C.toSet ⊆ T)
    (h : tokenSet c A = .ok X) (h' : tokenSet c C = .ok X) : A = C :=
  OrderedSet.subset_antisymm (subset_of_tokenSet hT hA hC h h') (subset_of_tokenSet hT hC hA h' h)

/-! ### Maps of sets -/

/-- A nonterminal with its set, and its name with the set in tokens. -/
structure SpeltAs (c : Convention) (e : Symbol × SymbolSet) (p : String × TokenSet) : Prop where
  name : e.1 = .nonterminal p.1
  set : tokenSet c e.2 = .ok p.2

namespace SpeltAs

variable {sets : Keyed Symbol SymbolSet} {ps : List (String × TokenSet)}

theorem tokenSets_eq (h : List.Forall₂ (SpeltAs c) sets.entries ps) :
    tokenSets c sets = .ok (.ofList ps) := by
  have hmapM : (sets.entries.mapM fun e => return (← e.1.name, ← tokenSet c e.2)) = .ok ps := by
    rw [mapM_eq_ok_iff]
    refine h.imp fun e p he => ?_
    rw [he.name, he.set]
    rfl
  rw [tokenSets, hmapM]
  rfl

theorem nodup (h : List.Forall₂ (SpeltAs c) sets.entries ps) : (ps.map Prod.fst).Nodup := by
  have hnames : sets.keys = (ps.map Prod.fst).map Symbol.nonterminal := by
    rw [Keyed.keys, ← List.forall₂_eq_eq_eq, List.forall₂_map_left_iff, List.map_map,
      List.forall₂_map_right_iff]
    exact h.imp fun _ _ he => he.name
  have hkeys := sets.keys_nodup
  rw [hnames] at hkeys
  exact hkeys.of_map _

theorem get?_ofList (h : List.Forall₂ (SpeltAs c) sets.entries ps) {name : String} :
    (Keyed.ofList ps).get? name = some X ↔
      ∃ A, sets.get? (.nonterminal name) = some A ∧ tokenSet c A = .ok X := by
  rw [Keyed.get?_eq_some_iff, Keyed.entries_ofList (nodup h)]
  constructor
  · intro hp
    obtain ⟨e, he, hep⟩ := exists_mem_of_forall₂ h hp
    exact ⟨e.2, Keyed.get?_eq_some_iff.2 (hep.name ▸ he), hep.set⟩
  · rintro ⟨A, hA, hX⟩
    obtain ⟨p, hp, hep⟩ := exists_mem_of_forall₂ h.flip (Keyed.get?_eq_some_iff.1 hA)
    obtain rfl := Symbol.nonterminal.inj hep.name
    obtain rfl := Except.ok.inj (hX.symm.trans hep.set)
    exact hp

end SpeltAs

/-- Each set of `sets`, a set of symbols of `T`, is written in tokens under the name of its
nonterminal. -/
structure Spells (c : Convention) (T : Set Symbol) (sets : Keyed Symbol SymbolSet)
    (tokens : Keyed String TokenSet) : Prop where
  faithful : c.Faithful T
  subset : ∀ n A, sets.get? n = some A → A.toSet ⊆ T
  nonterminal : ∀ n ∈ sets, n.isNonterminal
  get?_iff : ∀ name X, tokens.get? name = some X ↔
    ∃ A, sets.get? (.nonterminal name) = some A ∧ tokenSet c A = .ok X

theorem tokenSets_spells {sets : Keyed Symbol SymbolSet} (hT : c.Faithful T)
    (hsets : ∀ n A, sets.get? n = some A → A.toSet ⊆ T) (hkeys : ∀ n ∈ sets, n.isNonterminal) :
    ∃ tokens, tokenSets c sets = .ok tokens ∧ Spells c T sets tokens := by
  have hentry : ∀ e ∈ sets.entries, ∃ p, SpeltAs c e p := by
    intro e he
    obtain ⟨name, hname⟩ := Symbol.isNonterminal_iff.1 (hkeys e.1 (List.mem_map_of_mem he))
    obtain ⟨X, hX⟩ := tokenSet_ok hT (hsets e.1 e.2 (Keyed.get?_eq_some_iff.2 he))
    exact ⟨(name, X), hname, hX⟩
  obtain ⟨ps, hps⟩ := exists_forall₂_iff.2 hentry
  exact ⟨_, SpeltAs.tokenSets_eq hps, hT, hsets, hkeys, fun _ _ => SpeltAs.get?_ofList hps⟩

namespace Spells

variable {sets sets' : Keyed Symbol SymbolSet} {tokens tokens' : Keyed String TokenSet}

theorem get?_of_le (h : Spells c T sets tokens) (h' : Spells c T sets' tokens')
    (hle : ∀ name X, tokens.get? name = some X → tokens'.get? name = some X) {n : Symbol}
    (hA : sets.get? n = some A) : sets'.get? n = some A := by
  obtain ⟨name, rfl⟩ := Symbol.isNonterminal_iff.1
    (h.nonterminal n (Keyed.get?_isSome_iff.1 (by rw [hA]; rfl)))
  obtain ⟨X, hX⟩ := tokenSet_ok h.faithful (h.subset _ A hA)
  obtain ⟨C, hC, hX'⟩ := (h'.get?_iff name X).1 (hle name X ((h.get?_iff name X).2 ⟨A, hA, hX⟩))
  rw [hC, eq_of_tokenSet h.faithful (h.subset _ A hA) (h'.subset _ C hC) hX hX']

/-- Two maps are the same if they are written in the same way. -/
theorem same_iff (h : Spells c T sets tokens) (h' : Spells c T sets' tokens') :
    tokens.Same tokens' ↔ sets.Same sets' := by
  rw [Keyed.same_iff, Keyed.same_iff]
  constructor
  · intro heq n
    apply Option.ext
    intro A
    constructor
    · exact h.get?_of_le h' fun name X hX => heq name ▸ hX
    · exact h'.get?_of_le h fun name X hX => (heq name).symm ▸ hX
  · intro heq name
    apply Option.ext
    intro X
    rw [h.get?_iff, h'.get?_iff, heq]

end Spells

/-- The table of a grammar that was read can be written. -/
theorem build_spells {g : Grammar} {start : String} {rules : TokenRules}
    (h : Grammar.ofTokens c start rules = .ok g) (every : Bool) : ∃ t events tokens,
      build g every = (.ok t, events) ∧ t.toTokens c = .ok tokens ∧
        Spells c c.firstAlphabet t.first tokens.first ∧
        Spells c c.followAlphabet t.follow tokens.follow := by
  obtain ⟨t, events, m, hbuild, hm, hfirst, hfollow, -, hsets, hleast⟩ := build_eq g every
  have hrestored : ∀ s ∈ g.mentioned, c.Restores s := fun s hs =>
    Grammar.all_restored_of_ofTokens h s (.inr hs)
  have hin : ∀ n, t.first.sets n ⊆ c.firstAlphabet := by
    intro n
    rw [hsets]
    exact (hm.sets_subset n).trans
      (Grammar.firstSets_subset (by simp [Convention.firstAlphabet]) (fun s hs _ =>
        .inr (hrestored s hs)) n)
  have hin' : ∀ n, t.follow.sets n ⊆ c.followAlphabet := by
    intro n
    rw [hleast]
    refine Grammar.followSets_subset (.inl rfl) (fun s hs _ hne => .inr ⟨hrestored s hs, hne⟩)
      (fun m _ => (hin m).trans ?_) n
    rintro s (rfl | hs)
    · exact .inl rfl
    · exact (em (s = .epsilon)).imp_right fun hne => .inr ⟨hs, hne⟩
  have hnonterminal : ∀ n ∈ g.keys, n.isNonterminal := by
    intro n hn
    obtain ⟨name, -, rfl⟩ := Grammar.mem_iff.1 hn
    rfl
  obtain ⟨first, htokens, hspells⟩ := tokenSets_spells c.faithful_first
    (fun n A hA => Keyed.sets_of_get? hA ▸ hin n) (fun n hn => hnonterminal n (hfirst ▸ hn))
  obtain ⟨follow, htokens', hspells'⟩ := tokenSets_spells c.faithful_follow
    (fun n A hA => Keyed.sets_of_get? hA ▸ hin' n) (fun n hn => hnonterminal n (hfollow ▸ hn))
  refine ⟨t, events, ⟨first, follow⟩, hbuild, ?_, hspells, hspells'⟩
  rw [toTokens, htokens, htokens']
  rfl

/-- Nothing is lost when the tables of grammars that were read are written: they can be, within
each set different symbols have different tokens, and tables that are written in the same way are
the same. -/
theorem toTokens_same_iff {g g' : Grammar} {start start' : String} {rules rules' : TokenRules}
    (h : Grammar.ofTokens c start rules = .ok g) (h' : Grammar.ofTokens c start' rules' = .ok g')
    (every every' : Bool) : ∃ t events tokens t' events' tokens',
      build g every = (.ok t, events) ∧ build g' every' = (.ok t', events') ∧
      t.toTokens c = .ok tokens ∧ t'.toTokens c = .ok tokens' ∧
      (∀ n A, t.first.get? n = some A ∨ t.follow.get? n = some A → c.Faithful A.toSet) ∧
      (tokens.first.Same tokens'.first ↔ t.first.Same t'.first) ∧
      (tokens.follow.Same tokens'.follow ↔ t.follow.Same t'.follow) := by
  obtain ⟨t, events, tokens, hbuild, htokens, hfirst, hfollow⟩ := build_spells h every
  obtain ⟨t', events', tokens', hbuild', htokens', hfirst', hfollow'⟩ := build_spells h' every'
  refine ⟨t, events, tokens, t', events', tokens', hbuild, hbuild', htokens, htokens', ?_,
    hfirst.same_iff hfirst', hfollow.same_iff hfollow'⟩
  rintro n A (hA | hA)
  · exact hfirst.faithful.mono (hfirst.subset n A hA)
  · exact hfollow.faithful.mono (hfollow.subset n A hA)

/-- Both modes give the same table of `spelt`, as can be seen from its tokens even where `E` stands
for both reserved symbols. -/
theorem spelt_same_in_tokens : ∃ t events t' events',
    build .spelt false = (.ok t, events) ∧ build .spelt true = (.ok t', events') ∧
      t.first.Same t'.first ∧ t.follow.Same t'.follow := by
  obtain ⟨t, events, tokens, t', events', tokens', hbuild, hbuild', htokens, htokens', -, hfirst,
    hfollow⟩ := toTokens_same_iff Grammar.ofTokens_spellings Grammar.ofTokens_spellings false true
  have hsame : (build .spelt false).1.toOption.bind (fun t => (t.toTokens ⟨"E", "E"⟩).toOption) =
      (build .spelt true).1.toOption.bind fun t => (t.toTokens ⟨"E", "E"⟩).toOption := by
    decide +kernel
  have heq : tokens = tokens' := by
    rw [hbuild, hbuild'] at hsame
    change (t.toTokens ⟨"E", "E"⟩).toOption = (t'.toTokens ⟨"E", "E"⟩).toOption at hsame
    rw [htokens, htokens'] at hsame
    exact Option.some.inj hsame
  have hrefl : ∀ m : Keyed String TokenSet, m.Same m := fun m => Keyed.same_iff.2 fun _ => rfl
  subst heq
  exact ⟨t, events, t', events', hbuild, hbuild', hfirst.1 (hrefl _), hfollow.1 (hrefl _)⟩

end Table

end FirstFollow
