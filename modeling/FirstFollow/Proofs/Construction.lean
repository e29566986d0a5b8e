import FirstFollow.Proofs.Acceptance

/-!
Which rules over arbitrary symbols make a grammar, and how the others are refused. All that rules
hand over is checked in one order (`Grammar.ruleChecks`): the keys, the start symbol, and then each
symbol on a right-hand side, in the order in which `Grammar.mentions` lists them.
-/

namespace FirstFollow

/-- A symbol that may stand on a right-hand side when `keys` have rules. -/
def Symbol.Usable (keys : List Symbol) (s : Symbol) : Prop :=
  ¬ s.isText ∧ (s.isNonterminal → s ∈ keys)

theorem Symbol.isNonterminal_label {s : Symbol} (h : s.isNonterminal) :
    s = .nonterminal s.label := by
  obtain ⟨name, rfl⟩ := isNonterminal_iff.1 h
  rfl

section

variable {ks ks' : List Check} {e : Error}

theorem exists_of_firstError (h : firstError ks = some e) : ∃ k ∈ ks, ¬ k.holds ∧ k.error = e := by
  obtain ⟨k, hk, he⟩ := List.exists_of_findSome?_eq_some h
  refine ⟨k, hk, ?_⟩
  split at he
  next => cases he
  next hholds => exact ⟨hholds, Option.some.inj he⟩

/-- A later check is the first that fails only if all earlier ones hold. -/
theorem firstError_append_eq_some_iff : firstError (ks ++ ks') = some e ↔
    firstError ks = some e ∨ (∀ k ∈ ks, k.holds) ∧ firstError ks' = some e := by
  rw [firstError_append, Option.or_eq_some_iff, firstError_eq_none_iff]

end

namespace Grammar

/-! ### Checks -/

/-- All symbols on right-hand sides, each with its rule, by keys, alternatives and positions. -/
def mentions (rules : List (Symbol × List Derivation)) : List (Rule × Symbol) :=
  rules.flatMap fun e => e.2.flatMap fun d => d.map fun s => (⟨e.1.label, d⟩, s)

/-- What is checked of a symbol on a right-hand side. -/
def mentionChecks (keys : List Symbol) (m : Rule × Symbol) : List Check :=
  [⟨¬ m.2.isText, .notASymbol m.2 m.1⟩,
    ⟨m.2.isNonterminal → m.2 ∈ keys, .undefined m.2.label (some m.1)⟩]

/-- The checks of a start symbol and rules, in their order. -/
def ruleChecks (start : Symbol) (rules : List (Symbol × List Derivation)) : List Check :=
  rules.map (fun e => ⟨e.1.isNonterminal, .keyNotNonterminal e.1⟩) ++
    ([⟨start.isNonterminal, .startNotNonterminal start⟩] ++
      ⟨start ∈ rules.map Prod.fst, .undefined start.label none⟩ ::
        (mentions rules).flatMap (mentionChecks (rules.map Prod.fst)))

variable {start : Symbol} {rules : List (Symbol × List Derivation)} {keys : List Symbol}
  {r : Rule} {s : Symbol} {name : String}

theorem mem_mentions : (r, s) ∈ mentions rules ↔
    ∃ e ∈ rules, ∃ d ∈ e.2, r = ⟨e.1.label, d⟩ ∧ s ∈ d := by
  simp only [mentions, List.mem_flatMap, List.mem_map, Prod.mk.injEq]
  constructor
  · rintro ⟨e, he, d, hd, s, hs, rfl, rfl⟩
    exact ⟨e, he, d, hd, rfl, hs⟩
  · rintro ⟨e, he, d, hd, rfl, hs⟩
    exact ⟨e, he, d, hd, s, hs, rfl, rfl⟩

theorem mentionChecks_hold_iff :
    (∀ k ∈ mentionChecks keys (r, s), k.holds) ↔ s.Usable keys := by
  simp only [mentionChecks, List.forall_mem_cons, decide_eq_true_eq, Symbol.Usable]
  simp

/-- A missing nonterminal is told only where it stands. -/
theorem eq_of_mentionChecks {m : Rule × Symbol}
    (h : firstError (mentionChecks keys m) = some (.undefined name (some r))) :
    m = (r, .nonterminal name) ∧ .nonterminal name ∉ keys := by
  obtain ⟨k, hk, hholds, herror⟩ := exists_of_firstError h
  obtain ⟨r', s⟩ := m
  rcases List.mem_cons.1 hk with rfl | hk
  · cases herror
  · obtain rfl := List.mem_singleton.1 hk
    cases herror
    rw [decide_eq_true_eq, Classical.not_imp] at hholds
    rw [← Symbol.isNonterminal_label hholds.1]
    exact ⟨rfl, hholds.2⟩

/-! ### Construction -/

theorem keyName_obeys (s : Symbol) :
    Obeys [⟨s.isNonterminal, .keyNotNonterminal s⟩] (keyName s) := by
  intro e
  rw [firstError_singleton]
  cases s <;> simp [keyName, Symbol.isNonterminal]

theorem startName_obeys (s : Symbol) :
    Obeys [⟨s.isNonterminal, .startNotNonterminal s⟩] (startName s) := by
  intro e
  rw [firstError_singleton]
  cases s <;> simp [startName, Symbol.isNonterminal]

theorem named_obeys (rules : List (Symbol × List Derivation)) :
    Obeys (rules.map fun e => ⟨e.1.isNonterminal, .keyNotNonterminal e.1⟩)
      (rules.mapM fun e => return (← keyName e.1, e.2)) := by
  rw [List.map_eq_flatMap]
  exact Obeys.mapM fun e _ => (keyName_obeys e.1).map (·, e.2)

/-- Once all names are read, the rules are those of these names. -/
theorem ofRules_eq (start : Symbol) (rules : List (Symbol × List Derivation)) :
    ofRules start rules =
      (rules.mapM fun e => return (← keyName e.1, e.2)) >>= fun named =>
        startName start >>= fun name =>
          ofRules (.nonterminal name) (named.map fun e => (.nonterminal e.1, e.2)) := by
  rw [ofRules]
  congr 1
  funext named
  dsimp only
  congr 1
  funext name
  rw [ofRules, named_eq_ok_iff.2 rfl]
  rfl

theorem refusal?_eq (names : List String) (r : Rule) (s : Symbol) :
    refusal? names r s = firstError (mentionChecks (names.map .nonterminal) (r, s)) := by
  cases s with
  | nonterminal name =>
    by_cases h : name ∈ names <;> simp [refusal?, mentionChecks, firstError, Symbol.isText,
      Symbol.isNonterminal, Symbol.label, h]
  | _ => simp [refusal?, mentionChecks, firstError, Symbol.isText, Symbol.isNonterminal]

theorem firstRefusal?_eq {named : List (String × List Derivation)}
    (h : (named.map Prod.fst).Nodup) : firstRefusal? (Keyed.ofList named) =
      firstError ((mentions (named.map fun e => (.nonterminal e.1, e.2))).flatMap
        (mentionChecks ((named.map Prod.fst).map .nonterminal))) := by
  rw [firstRefusal?, Keyed.entries_ofList h, Keyed.keys_ofList h]
  simp only [mentions, List.flatMap_assoc, List.flatMap_map, firstError_flatMap, ← refusal?_eq]
  rfl

theorem nodup_of_named {rules : Keyed Symbol (List Derivation)}
    {named : List (String × List Derivation)}
    (h : rules.entries = named.map fun e => (.nonterminal e.1, e.2)) :
    (named.map Prod.fst).Nodup := by
  have hnonterminals : ((named.map Prod.fst).map Symbol.nonterminal).Nodup := by
    have hnodup := rules.nodup
    rw [h, List.map_map] at hnodup
    rwa [List.map_map]
  exact List.Pairwise.of_map _ (fun _ _ => mt (congrArg Symbol.nonterminal)) hnonterminals

/-- Rules with distinct keys are checked in the order of `ruleChecks`. -/
theorem ofRules_obeys_ruleChecks (start : Symbol) (rules : Keyed Symbol (List Derivation)) :
    Obeys (ruleChecks start rules.entries) (ofRules start rules.entries) := by
  rw [ruleChecks, ofRules_eq]
  refine (named_obeys rules.entries).bind fun named hnamed => (startName_obeys start).bind
    fun name hname => ?_
  have hrules := named_eq_ok_iff.1 hnamed
  obtain rfl := startName_eq_ok_iff.1 hname
  have hkeys : rules.entries.map Prod.fst = (named.map Prod.fst).map .nonterminal := by
    rw [hrules, List.map_map, List.map_map]
    rfl
  have hnodup := nodup_of_named hrules
  have hstart : Symbol.nonterminal name ∈ rules.entries.map Prod.fst ↔
      name ∈ Keyed.ofList named := by
    rw [Keyed.mem_def, Keyed.keys_ofList hnodup, hkeys]
    simp
  have hobeys := ofRules_obeys name (firstRefusal?_eq hnodup)
  simp only [← hstart, ← hkeys, ← hrules] at hobeys ⊢
  exact hobeys

/-! ### Acceptance -/

/-- What a start symbol and rules have to be like: keys and the start are nonterminals, the start is
a key, and right-hand sides hold symbols only, their nonterminals being keys. -/
structure Constructible (start : Symbol) (rules : List (Symbol × List Derivation)) : Prop where
  keys : ∀ e ∈ rules, e.1.isNonterminal
  start_nonterminal : start.isNonterminal
  start_mem : start ∈ rules.map Prod.fst
  symbols : ∀ e ∈ rules, ∀ d ∈ e.2, ∀ s ∈ d, ¬ s.isText
  closed : ∀ e ∈ rules, ∀ d ∈ e.2, ∀ s ∈ d, s.isNonterminal → s ∈ rules.map Prod.fst

theorem constructible_iff :
    Constructible start rules ↔ ∀ k ∈ ruleChecks start rules, k.holds := by
  have hmentions : (∀ m ∈ mentions rules, ∀ k ∈ mentionChecks (rules.map Prod.fst) m, k.holds) ↔
      ∀ e ∈ rules, ∀ d ∈ e.2, ∀ s ∈ d, s.Usable (rules.map Prod.fst) := by
    constructor
    · intro h e he d hd s hs
      exact mentionChecks_hold_iff.1 (h (_, s) (mem_mentions.2 ⟨e, he, d, hd, rfl, hs⟩))
    · rintro h ⟨r, s⟩ hm
      obtain ⟨e, he, d, hd, -, hs⟩ := mem_mentions.1 hm
      exact mentionChecks_hold_iff.2 (h e he d hd s hs)
  simp only [ruleChecks, List.forall_mem_append, List.forall_mem_map, List.forall_mem_cons,
    List.forall_mem_flatMap, hmentions, decide_eq_true_eq]
  constructor
  · rintro ⟨hkeys, hstart, hmem, hsymbols, hclosed⟩
    exact ⟨hkeys, ⟨hstart, by simp⟩, hmem, fun e he d hd s hs =>
      ⟨hsymbols e he d hd s hs, hclosed e he d hd s hs⟩⟩
  · rintro ⟨hkeys, ⟨hstart, -⟩, hmem, husable⟩
    exact ⟨hkeys, hstart, hmem, fun e he d hd s hs => (husable e he d hd s hs).1,
      fun e he d hd s hs => (husable e he d hd s hs).2⟩

/-! ### Missing nonterminals -/

/-- The errors of the keys and of the kind of the start symbol come before all that is missing. -/
theorem firstError_ruleChecks {missing : Option Rule}
    (h : firstError (ruleChecks start rules) = some (.undefined name missing)) :
    (∀ e ∈ rules, e.1.isNonterminal) ∧ start.isNonterminal ∧
      firstError (⟨start ∈ rules.map Prod.fst, .undefined start.label none⟩ ::
        (mentions rules).flatMap (mentionChecks (rules.map Prod.fst))) =
          some (.undefined name missing) := by
  rw [ruleChecks, firstError_append_eq_some_iff, firstError_append_eq_some_iff] at h
  rcases h with h | ⟨hkeys, h | ⟨hstart, h⟩⟩
  · obtain ⟨k, hk, -, herror⟩ := exists_of_firstError h
    obtain ⟨e, -, rfl⟩ := List.mem_map.1 hk
    cases herror
  · obtain ⟨k, hk, -, herror⟩ := exists_of_firstError h
    obtain rfl := List.mem_singleton.1 hk
    cases herror
  · exact ⟨List.forall_mem_map.1 hkeys, hstart _ List.mem_cons_self, h⟩

/-- No rule is blamed for a start symbol that is missing. -/
theorem missing_start (h : firstError (ruleChecks start rules) = some (.undefined name none)) :
    start = .nonterminal name ∧ start ∉ rules.map Prod.fst := by
  obtain ⟨-, hstart, h⟩ := firstError_ruleChecks h
  obtain ⟨k, hk, hholds, herror⟩ := exists_of_firstError h
  rcases List.mem_cons.1 hk with rfl | hk
  · cases herror
    exact ⟨Symbol.isNonterminal_label hstart, by simpa using hholds⟩
  · obtain ⟨m, -, hk⟩ := List.mem_flatMap.1 hk
    simp only [mentionChecks, List.mem_cons, List.not_mem_nil, or_false] at hk
    rcases hk with rfl | rfl <;> cases herror

/-- A rule that is blamed holds the missing nonterminal, behind symbols that may all be used. -/
theorem missing_mention
    (h : firstError (ruleChecks start rules) = some (.undefined name (some r))) :
    .nonterminal name ∉ rules.map Prod.fst ∧ .nonterminal name ∈ r.derivation ∧
      (∃ ds, (r.lhs, ds) ∈ rules ∧ r.derivation ∈ ds) ∧
      ∃ before after, mentions rules = before ++ (r, .nonterminal name) :: after ∧
        ∀ m ∈ before, m.2.Usable (rules.map Prod.fst) := by
  obtain ⟨hkeys, -, h⟩ := firstError_ruleChecks h
  rw [← List.singleton_append, firstError_append_eq_some_iff, firstError_flatMap] at h
  rcases h with h | ⟨-, h⟩
  · obtain ⟨k, hk, -, herror⟩ := exists_of_firstError h
    obtain rfl := List.mem_singleton.1 hk
    cases herror
  obtain ⟨before, m, after, hsplit, hm, hbefore⟩ := List.findSome?_eq_some_iff.1 h
  obtain ⟨rfl, hmissing⟩ := eq_of_mentionChecks hm
  have hmem : (r, .nonterminal name) ∈ mentions rules := by simp [hsplit]
  obtain ⟨e, he, d, hd, rfl, hs⟩ := mem_mentions.1 hmem
  refine ⟨hmissing, hs, ⟨e.2, ?_, hd⟩, before, after, hsplit, fun m hm => ?_⟩
  · have hlhs : e.1 = .nonterminal e.1.label := Symbol.isNonterminal_label (hkeys e he)
    rw [Rule.lhs, ← hlhs]
    exact he
  · exact mentionChecks_hold_iff.1 (firstError_eq_none_iff.1 (hbefore m hm))

/-- What is made has this start symbol and these rules. -/
theorem ofRules_parts {g : Grammar} {rules : Keyed Symbol (List Derivation)}
    (h : ofRules start rules.entries = .ok g) :
    g.startSymbol = start ∧ g.items = rules.entries := by
  obtain ⟨hstart, named, hrules, hproductions⟩ := ofRules_eq_ok_iff.1 h
  have hnodup : (named.map Prod.fst).Nodup := nodup_of_named hrules
  rw [items, hproductions, Keyed.entries_ofList hnodup, hrules]
  exact ⟨hstart.symm, rfl⟩

/-- A grammar is made of a start symbol and rules if and only if they are like that, and then of
all of them. Otherwise the error is that of the first check that fails: those of the keys in turn,
then that the start is a nonterminal and that it is a key, and last those of the symbols on
right-hand sides. A nonterminal that is told to be missing is no key; it is the start, or it stands
in the rule that is told, behind symbols that may all be used. -/
theorem ofRules_accepts_iff (start : Symbol) (rules : Keyed Symbol (List Derivation)) :
    ((∃ g, ofRules start rules.entries = .ok g) ↔ Constructible start rules.entries) ∧
    (∀ g, ofRules start rules.entries = .ok g →
      g.startSymbol = start ∧ g.items = rules.entries) ∧
    (∀ e, ofRules start rules.entries = .error e ↔
      firstError (ruleChecks start rules.entries) = some e) ∧
    (∀ name, ofRules start rules.entries = .error (.undefined name none) →
      start = .nonterminal name ∧ .nonterminal name ∉ rules.keys) ∧
    ∀ name r, ofRules start rules.entries = .error (.undefined name (some r)) →
      .nonterminal name ∉ rules.keys ∧ .nonterminal name ∈ r.derivation ∧
      (∃ ds, (r.lhs, ds) ∈ rules.entries ∧ r.derivation ∈ ds) ∧
      ∃ before after, mentions rules.entries = before ++ (r, .nonterminal name) :: after ∧
        ∀ m ∈ before, m.2.Usable rules.keys := by
  have hobeys := ofRules_obeys_ruleChecks start rules
  refine ⟨hobeys.exists_ok_iff.trans constructible_iff.symm, fun g hg => ofRules_parts hg, hobeys,
    fun name he => ?_, fun name r he => missing_mention ((hobeys _).1 he)⟩
  obtain ⟨hstart, hmissing⟩ := missing_start ((hobeys _).1 he)
  exact ⟨hstart, hstart ▸ hmissing⟩

/-- The bare symbols pass, and `B` is missed before the plain text behind it is found. -/
def missingBeforeText : Keyed Symbol (List Derivation) :=
  ⟨[(.nonterminal "S", [[.bare, .nonterminal "A"], [.pseudo, .nonterminal "B", .text "b"]]),
    (.nonterminal "A", [[.nonterminal "C"]])], by decide⟩

theorem ofRules_missing_before_text :
    ofRules (.nonterminal "S") missingBeforeText.entries =
      .error (.undefined "B" (some ⟨"S", [.pseudo, .nonterminal "B", .text "b"]⟩)) ∧
    .nonterminal "B" ∉ missingBeforeText.keys ∧
    .nonterminal "B" ∈ [Symbol.pseudo, .nonterminal "B", .text "b"] := by
  have he : ofRules (.nonterminal "S") missingBeforeText.entries =
      .error (.undefined "B" (some ⟨"S", [.pseudo, .nonterminal "B", .text "b"]⟩)) := by
    decide +kernel
  obtain ⟨-, -, -, -, hmention⟩ := ofRules_accepts_iff (.nonterminal "S") missingBeforeText
  obtain ⟨hmissing, hstands, -⟩ := hmention _ _ he
  exact ⟨he, hmissing, hstands⟩

/-- Of several faults the first one is told: a key that is none comes before a missing start. -/
example : ofRules (.nonterminal "Q") [(.nonterminal "S", [[.text "a"]]), (.text "A", [])] =
    .error (.keyNotNonterminal (.text "A")) := by
  decide +kernel

end Grammar

end FirstFollow
