import GrammarText.Proofs.Document.Grouping
import GrammarText.Proofs.RuleTable.Lookup
import Mathlib.Data.List.Induction

/-!
# Names without a rule

`undefinedNames` runs through the rules of a table, leaves out the names that have a rule, and keeps each of the others
where it comes first.  To say where that is, the terms of a table get places: the number of the rule, of the alternative
in the rule and of the term in the alternative, in the order in which the rules are read.

* `placedTerms` are the terms with their places: all of them (`mem_placedTerms_iff`), in order
  (`pairwise_placedTerms`), and without the places what `undefinedNames` runs through (`map_snd_placedReferences`);
* `pairwise_eraseDups`: the first occurrences of names with places are listed in the order of these places;
* `undefinedNames_of_ofTokens`: the undefined names of a table made from tokens are the names referred to that have no
  rule, each once and in the order of first reference.
-/

namespace GrammarText.RuleTable

/-! ## Places -/

/-- Where a term stands in a table. -/
structure Place where
  rule : Nat
  alternative : Nat
  term : Nat
  deriving DecidableEq, Repr

/-- The order in which a table is read. -/
def Place.Before (p q : Place) : Prop :=
  p.rule < q.rule ∨
    p.rule = q.rule ∧ (p.alternative < q.alternative ∨ p.alternative = q.alternative ∧ p.term < q.term)

/-- The term at a place. -/
def term? (t : RuleTable) (p : Place) : Option Term :=
  t.rules[p.rule]?.bind fun r => r.alternatives[p.alternative]?.bind fun terms => terms[p.term]?

/-- A name is referred to at a place, and at no place before it. -/
structure FirstReference (t : RuleTable) (n : String) (p : Place) : Prop where
  isReference : t.term? p = some (.name n)
  first : ∀ q, t.term? q = some (.name n) → q = p ∨ p.Before q

/-! ## The terms of a table with their places -/

/-- The terms of rules in order, each with its place. -/
def placedTerms (rs : List Rule) : List (Place × Term) :=
  rs.zipIdx.flatMap fun (r, i) =>
    r.alternatives.zipIdx.flatMap fun (terms, j) =>
      terms.zipIdx.map fun (x, k) => (⟨i, j, k⟩, x)

theorem mem_placedTerms_iff {t : RuleTable} {p : Place} {x : Term} :
    (p, x) ∈ placedTerms t.rules.toList ↔ t.term? p = some x := by
  obtain ⟨i, j, k⟩ := p
  simp only [placedTerms, List.mem_flatMap, List.mem_map, Prod.exists, List.mem_zipIdx_iff_getElem?, term?,
    Option.bind_eq_some_iff, Array.getElem?_toList, Prod.mk.injEq, Place.mk.injEq]
  constructor
  · rintro ⟨r, i', hr, terms, j', hterms, x', k', hx, ⟨rfl, rfl, rfl⟩, rfl⟩
    exact ⟨r, hr, terms, hterms, hx⟩
  · rintro ⟨r, hr, terms, hterms, hx⟩
    exact ⟨r, i, hr, terms, j, hterms, x, k, hx, ⟨rfl, rfl, rfl⟩, rfl⟩

/-- In a list with its indices, what comes later has the greater index. -/
theorem pairwise_zipIdx {α : Type} (l : List α) : l.zipIdx.Pairwise fun a b => a.2 < b.2 := by
  rw [List.pairwise_iff_getElem]
  intro i j hi hj hlt
  rw [List.getElem_zipIdx, List.getElem_zipIdx]
  omega

/-- The places are in reading order. -/
theorem pairwise_placedTerms (rs : List Rule) : (placedTerms rs).Pairwise fun a b => a.1.Before b.1 := by
  rw [placedTerms, List.pairwise_flatMap]
  refine ⟨fun ⟨r, i⟩ _ => ?_, (pairwise_zipIdx rs).imp fun {a b} hlt => ?_⟩
  · rw [List.pairwise_flatMap]
    refine ⟨fun ⟨terms, j⟩ _ => ?_, (pairwise_zipIdx r.alternatives).imp fun {a b} hlt => ?_⟩
    · rw [List.pairwise_map]
      exact (pairwise_zipIdx terms).imp fun hlt => .inr ⟨rfl, .inr ⟨rfl, hlt⟩⟩
    · simp only [List.mem_map]
      rintro _ ⟨x, _, rfl⟩ _ ⟨y, _, rfl⟩
      exact .inr ⟨rfl, .inl hlt⟩
  · simp only [List.mem_flatMap, List.mem_map]
    rintro _ ⟨terms, _, x, _, rfl⟩ _ ⟨others, _, y, _, rfl⟩
    exact .inl hlt

theorem flatMap_zipIdx {α β : Type} (f : α → List β) (l : List α) : (l.zipIdx.flatMap fun a => f a.1) = l.flatMap f := by
  rw [← List.flatMap_map, List.zipIdx_map_fst]

theorem map_snd_placedTerms (rs : List Rule) :
    (placedTerms rs).map Prod.snd = rs.flatMap fun r => r.alternatives.flatten := by
  have hterms : ∀ (i j : Nat) (terms : List Term),
      (terms.zipIdx.map fun xk : Term × Nat => ((⟨i, j, xk.2⟩ : Place), xk.1)).map Prod.snd = terms := by
    intro i j terms
    rw [List.map_map]
    exact List.zipIdx_map_fst 0 terms
  rw [placedTerms, List.map_flatMap]
  simp only [List.map_flatMap, hterms]
  rw [flatMap_zipIdx fun r : Rule => r.alternatives.zipIdx.flatMap fun a => a.1]
  congr 1
  funext r
  rw [flatMap_zipIdx fun terms : List Term => terms, List.flatMap_id']

/-- The name a term refers to. -/
def referred? : Term → Option String
  | .name n => some n
  | _ => none

/-- The names that rules refer to in order, each with its place. -/
def placedReferences (rs : List Rule) : List (Place × String) :=
  (placedTerms rs).filterMap fun a => (referred? a.2).map fun n => (a.1, n)

theorem referred?_eq_some_iff {x : Term} {n : String} : referred? x = some n ↔ x = .name n := by
  cases x <;> simp [referred?]

theorem mem_placedReferences_iff {t : RuleTable} {p : Place} {n : String} :
    (p, n) ∈ placedReferences t.rules.toList ↔ t.term? p = some (.name n) := by
  simp only [placedReferences, List.mem_filterMap, Option.map_eq_some_iff, Prod.exists, Prod.mk.injEq]
  constructor
  · rintro ⟨q, x, hx, m, hm, rfl, rfl⟩
    rw [referred?_eq_some_iff.mp hm] at hx
    exact mem_placedTerms_iff.mp hx
  · intro h
    exact ⟨p, .name n, mem_placedTerms_iff.mpr h, n, rfl, rfl, rfl⟩

theorem pairwise_placedReferences (rs : List Rule) :
    (placedReferences rs).Pairwise fun a b => a.1.Before b.1 := by
  rw [placedReferences, List.pairwise_filterMap]
  refine (pairwise_placedTerms rs).imp fun {a b} hlt => ?_
  simp only [Option.map_eq_some_iff]
  rintro _ ⟨m, -, rfl⟩ _ ⟨n, -, rfl⟩
  exact hlt

theorem references_eq (r : Rule) : r.references = r.alternatives.flatten.filterMap referred? := by
  rw [Rule.references]
  congr 1

theorem map_snd_placedReferences (rs : List Rule) :
    (placedReferences rs).map Prod.snd = rs.flatMap Rule.references := by
  rw [placedReferences, List.map_filterMap]
  simp only [Option.map_map, Function.comp_def, Option.map_id_fun']
  rw [show (fun a : Place × Term => id (referred? a.2)) = referred? ∘ Prod.snd from rfl, ← List.filterMap_map,
    map_snd_placedTerms, List.filterMap_flatMap]
  exact congrArg rs.flatMap (funext fun r => (references_eq r).symm)

/-! ## First occurrences of names with places -/

/-- A name has a place in a list, and no place in it before that. -/
structure FirstIn (l : List (Place × String)) (n : String) (p : Place) : Prop where
  mem : (p, n) ∈ l
  first : ∀ q, (q, n) ∈ l → q = p ∨ p.Before q

theorem exists_firstIn {l : List (Place × String)} (h : l.Pairwise fun a b => a.1.Before b.1) {n : String}
    (hn : n ∈ l.map Prod.snd) : ∃ p, FirstIn l n p := by
  induction l with
  | nil => cases hn
  | cons a l ih =>
    obtain ⟨q, m⟩ := a
    obtain ⟨hbefore, hrest⟩ := List.pairwise_cons.mp h
    by_cases hm : m = n
    · subst hm
      refine ⟨q, List.mem_cons_self, fun q' hq' => ?_⟩
      rcases List.mem_cons.mp hq' with heq | hmem
      · exact .inl (Prod.mk.inj heq).1
      · exact .inr (hbefore _ hmem)
    · have hmem : n ∈ l.map Prod.snd := by
        rcases List.mem_cons.mp hn with heq | hmem
        · exact absurd heq.symm hm
        · exact hmem
      obtain ⟨p, hp⟩ := ih hrest hmem
      refine ⟨p, List.mem_cons_of_mem _ hp.mem, fun q' hq' => ?_⟩
      rcases List.mem_cons.mp hq' with heq | hmem
      · exact absurd (Prod.mk.inj heq).2.symm hm
      · exact hp.first q' hmem

/-- What comes first in a list still does if something later is put at its end. -/
theorem FirstIn.concat {l : List (Place × String)} {a : Place × String} {n : String} {p : Place} (h : FirstIn l n p)
    (ha : ∀ b ∈ l, b.1.Before a.1) : FirstIn (l ++ [a]) n p := by
  refine ⟨List.mem_append_left _ h.mem, fun q hq => ?_⟩
  rcases List.mem_append.mp hq with hmem | hmem
  · exact h.first q hmem
  · obtain rfl := List.mem_singleton.mp hmem
    exact .inr (ha _ h.mem)

/-- **Names with places in reading order are listed in the order of their first places.** -/
theorem pairwise_eraseDups {l : List (Place × String)} (h : l.Pairwise fun a b => a.1.Before b.1) :
    (l.map Prod.snd).eraseDups.Pairwise fun m n => ∃ p q, FirstIn l m p ∧ FirstIn l n q ∧ p.Before q := by
  induction l using List.reverseRecOn with
  | nil => simp
  | append_singleton l a ih =>
    obtain ⟨hfront, -, hall⟩ := List.pairwise_append.mp h
    have hlast : ∀ b ∈ l, b.1.Before a.1 := fun b hb => hall b hb a (List.mem_singleton_self a)
    have hsame := (ih hfront).imp fun {m n} ⟨p, q, hp, hq, hlt⟩ =>
      (⟨p, q, hp.concat hlast, hq.concat hlast, hlt⟩ :
        ∃ p q, FirstIn (l ++ [a]) m p ∧ FirstIn (l ++ [a]) n q ∧ p.Before q)
    rw [List.map_append, List.map_singleton]
    by_cases ha : a.2 ∈ l.map Prod.snd
    · rwa [eraseDups_concat_of_mem ha]
    · rw [eraseDups_concat_of_not_mem ha, List.pairwise_append]
      refine ⟨hsame, List.pairwise_singleton _ _, fun m hm n hn => ?_⟩
      obtain rfl := List.mem_singleton.mp hn
      obtain ⟨p, hp⟩ := exists_firstIn hfront (List.mem_eraseDups.mp hm)
      refine ⟨p, a.1, hp.concat hlast, ⟨by simp, fun q hq => ?_⟩, hlast _ hp.mem⟩
      rcases List.mem_append.mp hq with hmem | hmem
      · exact absurd (List.mem_map_of_mem hmem) ha
      · exact .inl (Prod.mk.inj (List.mem_singleton.mp hmem)).1

/-! ## The undefined names of a table -/

variable {settings : Settings} {tokens : List Token} {t : RuleTable} {n : String}

theorem firstReference_iff {p : Place} : FirstReference t n p ↔ FirstIn (placedReferences t.rules.toList) n p := by
  constructor
  · intro h
    exact ⟨mem_placedReferences_iff.mpr h.isReference, fun q hq => h.first q (mem_placedReferences_iff.mp hq)⟩
  · intro h
    exact ⟨mem_placedReferences_iff.mp h.mem, fun q hq => h.first q (mem_placedReferences_iff.mpr hq)⟩

/-- **The undefined names are in the order of first reference**, in any table. -/
theorem pairwise_undefinedNames (t : RuleTable) :
    t.undefinedNames.Pairwise fun m n => ∃ p q, FirstReference t m p ∧ FirstReference t n q ∧ p.Before q := by
  have hplaced : (t.rules.toList.flatMap Rule.references).filter (fun n => !t.contains n) =
      ((placedReferences t.rules.toList).filter fun a => !t.contains a.2).map Prod.snd := by
    rw [← map_snd_placedReferences, List.filter_map]
    rfl
  have hsorted := (pairwise_placedReferences t.rules.toList).filter fun a => !t.contains a.2
  -- a name that stays keeps all its places
  have hwhole : ∀ {n p}, FirstIn ((placedReferences t.rules.toList).filter fun a => !t.contains a.2) n p →
      FirstReference t n p := by
    intro n p h
    obtain ⟨hmem, hkept⟩ := List.mem_filter.mp h.mem
    exact firstReference_iff.mpr ⟨hmem, fun q hq => h.first q (List.mem_filter.mpr ⟨hq, hkept⟩)⟩
  rw [undefinedNames, hplaced]
  exact (pairwise_eraseDups hsorted).imp fun ⟨p, q, hp, hq, hlt⟩ => ⟨p, q, hwhole hp, hwhole hq, hlt⟩

theorem mem_references_iff {r : Rule} : n ∈ r.references ↔ ∃ terms ∈ r.alternatives, Term.name n ∈ terms := by
  rw [references_eq, List.mem_filterMap]
  simp only [referred?_eq_some_iff, exists_eq_right, List.mem_flatten]

/-- **A name is undefined exactly if a rule refers to it and no rule has it.** -/
theorem Indexed.mem_undefinedNames_iff (h : t.Indexed) :
    n ∈ t.undefinedNames ↔
      (∃ r ∈ t.rules, ∃ terms ∈ r.alternatives, Term.name n ∈ terms) ∧ ∀ r ∈ t.rules, r.name ≠ n := by
  have hmissing : (!t.contains n) = true ↔ ∀ r ∈ t.rules, r.name ≠ n := by
    rw [Bool.not_eq_true', ← Bool.not_eq_true, h.contains_eq, h.isSome_get?_iff, names, List.mem_map]
    simp only [Array.mem_toList_iff, not_exists, not_and, ne_eq]
  rw [undefinedNames, List.mem_eraseDups, List.mem_filter, List.mem_flatMap, hmissing]
  simp only [Array.mem_toList_iff, mem_references_iff]

/-- The terms of a definition are in the rule that has its name. -/
theorem Holds.exists_term? {defs : List Rule} (h : t.Holds defs) {d : Rule} (hd : d ∈ defs) {terms : List Term}
    (hterms : terms ∈ d.alternatives) {x : Term} (hx : x ∈ terms) :
    ∃ p, t.term? p = some x ∧ t.names[p.rule]? = some d.name := by
  have hname : d.name ∈ t.names := by
    rw [h.names_eq, List.mem_eraseDups]
    exact List.mem_map_of_mem hd
  obtain ⟨i, hi⟩ := List.mem_iff_getElem?.mp hname
  obtain ⟨r, hr, hsame⟩ := Option.map_eq_some_iff.mp ((List.getElem?_map ..).symm.trans hi)
  have hr' : r ∈ t.rules := Array.mem_toList_iff.mp (List.mem_of_getElem? hr)
  have hget := h.get?_eq hname
  rw [h.indexed.get?_eq_some_iff.mpr ⟨hr', hsame⟩, Option.some_inj] at hget
  have hmem : terms ∈ r.alternatives := by
    rw [hget]
    exact List.mem_flatMap.mpr ⟨d, List.mem_filter.mpr ⟨hd, by simp⟩, hterms⟩
  obtain ⟨j, hj⟩ := List.mem_iff_getElem?.mp hmem
  obtain ⟨k, hk⟩ := List.mem_iff_getElem?.mp hx
  refine ⟨⟨i, j, k⟩, ?_, hi⟩
  rw [term?, ← Array.getElem?_toList, hr, Option.bind_some, hj, Option.bind_some, hk]

/-- The undefined names of a table are those that its definitions refer to and that none of them has. -/
theorem Holds.mem_undefinedNames_iff {defs : List Rule} (h : t.Holds defs) :
    n ∈ t.undefinedNames ↔ (∃ d ∈ defs, n ∈ d.references) ∧ n ∉ defs.map Rule.name := by
  have hnames : (∀ r ∈ t.rules, r.name ≠ n) ↔ n ∉ defs.map Rule.name := by
    rw [← List.mem_eraseDups, ← h.names_eq, names, List.mem_map]
    simp only [Array.mem_toList_iff, not_exists, not_and, ne_eq]
  rw [h.indexed.mem_undefinedNames_iff, hnames]
  simp only [mem_references_iff]
  constructor
  · intro hn
    obtain ⟨⟨r, hr, terms, hterms, hname⟩, hmissing⟩ := hn
    obtain ⟨d, hd, hfrom⟩ := (h.of_mem hr).2 terms hterms
    exact ⟨⟨d, hd, terms, hfrom, hname⟩, hmissing⟩
  · intro hn
    obtain ⟨⟨d, hd, terms, hterms, hname⟩, hmissing⟩ := hn
    obtain ⟨p, hp, -⟩ := h.exists_term? hd hterms hname
    rw [term?, Option.bind_eq_some_iff] at hp
    obtain ⟨r, hr, hp⟩ := hp
    obtain ⟨terms', hterms', hp⟩ := Option.bind_eq_some_iff.mp hp
    exact ⟨⟨r, Array.mem_of_getElem? hr, terms', List.mem_of_getElem? hterms', List.mem_of_getElem? hp⟩, hmissing⟩

/-- There are none exactly if every name that a definition refers to is the name of one. -/
theorem Holds.undefinedNames_eq_nil_iff {defs : List Rule} (h : t.Holds defs) :
    t.undefinedNames = [] ↔ ∀ d ∈ defs, ∀ n ∈ d.references, n ∈ defs.map Rule.name := by
  rw [List.eq_nil_iff_forall_not_mem]
  simp only [h.mem_undefinedNames_iff, not_and, not_not]
  constructor
  · intro hall d hd n hn
    exact hall n ⟨d, hd, hn⟩
  · intro hall n hn
    obtain ⟨d, hd, hn⟩ := hn
    exact hall d hd n hn

/-- Definitions from lexed tokens refer to no class by a name. -/
theorem spelling_not_mem_references {d : Document} (hd : d.tokens = .ok tokens) {defs : List Rule}
    (hdefs : Grouping.rules tokens = .ok defs) {r : Rule} (hr : r ∈ defs) (b : Builtin) : b.spelling ∉ r.references := by
  obtain ⟨segs, rfl⟩ := Segment.exists_segments_of_isDocument (Document.tokens_eq_ok_iff.mp hd)
  rw [mem_references_iff]
  intro hn
  obtain ⟨terms, hterms, hname⟩ := hn
  have hbody := ((Segment.madeOf_of_mem_rules hdefs r hr).terms terms hterms _ hname).1
  exact hbody.2 b rfl

/-- **A table made from lexed tokens refers to no class by a name.** -/
theorem spelling_not_mem_undefinedNames {d : Document} (hd : d.tokens = .ok tokens) (h : ofTokens settings tokens = .ok t)
    (b : Builtin) : b.spelling ∉ t.undefinedNames := by
  obtain ⟨defs, hdefs, hholds⟩ := exists_holds_of_ofTokens h
  intro hmem
  obtain ⟨⟨r, hr, hn⟩, -⟩ := hholds.mem_undefinedNames_iff.mp hmem
  exact spelling_not_mem_references hd hdefs hr b hn

/-- **What the undefined names are.**  They are the names that some rule of the table refers to and that no rule has,
each once, in the order of first reference when the rules are read in the order of the table; there the terms of a
definition are in the rule of its name, wherever the definition was.  If the tokens were lexed, no undefined name is the
spelling of a class. -/
theorem undefinedNames_of_ofTokens (settings : Settings) (tokens : List Token) (t : RuleTable)
    (h : ofTokens settings tokens = .ok t) :
    t.undefinedNames.Nodup ∧
    (∀ n : String, n ∈ t.undefinedNames ↔
      (∃ r ∈ t.rules, ∃ terms ∈ r.alternatives, Term.name n ∈ terms) ∧ ∀ r ∈ t.rules, r.name ≠ n) ∧
    (t.undefinedNames.Pairwise fun m n =>
      ∃ p q, FirstReference t m p ∧ FirstReference t n q ∧ p.Before q) ∧
    (∀ defs, Grouping.rules tokens = .ok defs →
      t.names = (defs.map Rule.name).eraseDups ∧
      ∀ d ∈ defs, ∀ terms ∈ d.alternatives, ∀ x ∈ terms,
        ∃ p, t.term? p = some x ∧ t.names[p.rule]? = some d.name) ∧
    ∀ d : Document, d.tokens = .ok tokens → ∀ b : Builtin, b.spelling ∉ t.undefinedNames := by
  obtain ⟨found, hfound, hholds⟩ := exists_holds_of_ofTokens h
  refine ⟨nodup_eraseDups _, fun n => hholds.indexed.mem_undefinedNames_iff, pairwise_undefinedNames t,
    fun defs hdefs => ?_, fun d hd => spelling_not_mem_undefinedNames hd h⟩
  obtain rfl : found = defs := Except.ok.inj (hfound.symm.trans hdefs)
  exact ⟨hholds.names_eq, fun d hd terms hterms x hx => hholds.exists_term? hd hterms hx⟩

/-- A definition of `a`, one of `b` and one more of `a`, merged: the name in the last line comes before the one in the
line before it, because its alternative is in the first rule; and the class in the first line is not undefined. -/
theorem undefinedNames_of_ofTokens_interleaved :
    ∃ t, ofTokens { repeats := .merged }
        [.name "a", .assignment, .name "x", .builtin .digit, .endOfLine, .name "b", .assignment, .name "y", .separator '|',
          .name "x", .endOfLine, .name "a", .assignment, .name "z", .name "b", .endOfLine] = .ok t ∧
      t.undefinedNames = ["x", "z", "y"] ∧
      (∃ p q, FirstReference t "z" p ∧ FirstReference t "y" q ∧ p.Before q) ∧
      (∃ p, t.term? p = some (.name "z") ∧ t.names[p.rule]? = some "a") ∧
      "digit" ∉ t.undefinedNames := by
  have hbuilt : ofTokens { repeats := .merged }
        [.name "a", .assignment, .name "x", .builtin .digit, .endOfLine, .name "b", .assignment, .name "y", .separator '|',
          .name "x", .endOfLine, .name "a", .assignment, .name "z", .name "b", .endOfLine] =
      .ok ((empty.push ⟨"a", [[.name "x", .builtin .digit], [.name "z", .name "b"]]⟩).push
        ⟨"b", [[.name "y"], [.name "x"]]⟩) := by decide +kernel
  have hlexed : (⟨{}, ["<a> ::= <x> <digit>", "<b> ::= <y> | <x>", "<a> ::= <z> <b>"]⟩ : Document).tokens =
      .ok [.name "a", .assignment, .name "x", .builtin .digit, .endOfLine, .name "b", .assignment, .name "y",
        .separator '|', .name "x", .endOfLine, .name "a", .assignment, .name "z", .name "b", .endOfLine] := by
    decide +kernel
  have hnames : ((empty.push ⟨"a", [[.name "x", .builtin .digit], [.name "z", .name "b"]]⟩).push
      ⟨"b", [[.name "y"], [.name "x"]]⟩).undefinedNames = ["x", "z", "y"] := by decide +kernel
  have hdefs : Grouping.rules
      [.name "a", .assignment, .name "x", .builtin .digit, .endOfLine, .name "b", .assignment, .name "y", .separator '|',
        .name "x", .endOfLine, .name "a", .assignment, .name "z", .name "b", .endOfLine] =
      .ok [⟨"a", [[.name "x", .builtin .digit]]⟩, ⟨"b", [[.name "y"], [.name "x"]]⟩, ⟨"a", [[.name "z", .name "b"]]⟩] := by
    decide +kernel
  obtain ⟨-, -, horder, hplaces, hclasses⟩ := undefinedNames_of_ofTokens _ _ _ hbuilt
  obtain ⟨-, hplaces⟩ := hplaces _ hdefs
  refine ⟨_, hbuilt, hnames, ?_, ?_, hclasses _ hlexed .digit⟩
  · rw [hnames] at horder
    exact (List.pairwise_cons.mp (List.pairwise_cons.mp horder).2).1 "y" (by simp)
  · exact hplaces ⟨"a", [[.name "z", .name "b"]]⟩ (by simp) [.name "z", .name "b"] (by simp) (.name "z") (by simp)

end GrammarText.RuleTable
