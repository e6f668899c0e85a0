import GrammarText.CommandLine.Run
import Mathlib.Tactic.SplitIfs

/-!
# What arguments can ask for

The arguments are read from left to right, and yet the order in which options and path stand does not matter: each of
them fills a place of its own, and a second one for the same place is refused wherever it stands.  Help is the one
request for which the words behind it are not read at all.

* `Gathered.isOf_of_gather`: the words after a command ask for a run of it on a path that is not empty, or for help on
  it; so no command is ever run on an empty path (`path_of_ofWords?`);
* `Gathered.gather_append_of_help`: what follows a request for help does not matter, and for all arguments
  `ofArguments?_append_of_help`;
* `Gathered.gather_perm`: options and path after a command may come in any order, and for all arguments
  `ofArguments?_perm`;
* `run_status_eq_two_iff` and `run_of_no_invocation`: a run ends with the status 2 exactly on a usage error, and what it
  finds around it matters only to a command.
-/

namespace GrammarText.CommandLine

/-- What one-letter options can ask for: help where they stand, or the version before a command. -/
theorem Letters.asked_of? {after : Option Command} {given : Bool} {cs : List Char} {r : Request}
    (h : Letters.of? after given cs = some (.asked r)) :
    r = .help (after.elim .program .command) ∨ r = .version ∧ after = none := by
  fun_induction Letters.of? after given cs with
  | case1 => cases h
  | case2 => cases h
  | case3 given cs _ ih => exact ih h
  | case4 =>
    cases h
    exact .inl rfl
  | case5 _ _ hbefore =>
    cases h
    exact .inr ⟨rfl, Option.isNone_iff_eq_none.mp hbefore⟩
  | case6 => cases h
  | case7 => cases h

namespace Gathered

variable {command : Command} {verbose : Bool} {g g' : Gathered}

/-! ## What the words after a command ask for -/

/-- What the words after a command can ask for: a run of the command on some path, or help on it. -/
def IsOf (command : Command) : Request → Prop
  | .help topic => topic = .command command
  | .version => False
  | .invoke i => i.command = command ∧ i.path ≠ ""

theorem path_of_withPath {path : String} (h : g.withPath path = some g') : g'.path = some path ∧ path ≠ "" := by
  obtain ⟨hfree, hg⟩ := Option.ite_none_left_eq_some.mp h
  obtain rfl := Option.some.inj hg
  exact ⟨rfl, fun hempty => hfree (.inl hempty)⟩

/-- The options leave the path as it is. -/
theorem path_of_withOption
    (h : (∃ name, g.withName name = some g') ∨ g.withOwnFlag = some g' ∨ g.withVerbose = some g') :
    g'.path = g.path := by
  rcases h with ⟨name, h⟩ | h | h <;>
  · obtain ⟨-, hg⟩ := Option.ite_none_left_eq_some.mp h
    obtain rfl := Option.some.inj hg
    rfl

/-- Words that are all paths leave no empty one. -/
theorem path_of_foldlM_withPath {words : List String} (hpath : g.path ≠ some "")
    (h : words.foldlM withPath g = some g') : g'.path ≠ some "" := by
  induction words generalizing g with
  | nil =>
    obtain rfl := Option.some.inj h
    exact hpath
  | cons word words ih =>
    obtain ⟨next, hnext, hrest⟩ := Option.bind_eq_some_iff.mp h
    obtain ⟨hword, hne⟩ := path_of_withPath hnext
    exact ih (by rw [hword]; simpa using hne) hrest

theorem isOf_of_invocation? {i : Invocation} (hpath : g.path ≠ some "")
    (h : g.invocation? command verbose = some i) : IsOf command (.invoke i) := by
  obtain ⟨path, hfound, rfl⟩ := Option.map_eq_some_iff.mp h
  exact ⟨rfl, fun hempty => hpath (hfound.trans (congrArg some hempty))⟩

/-- **The words after a command ask for a run of it on a path that is not empty, or for help on it.** -/
theorem isOf_of_gather {words : List String} {r : Request} (hpath : g.path ≠ some "")
    (h : gather command verbose g words = some r) : IsOf command r := by
  fun_induction gather command verbose g words with
  | case1 g =>
    obtain ⟨i, hi, rfl⟩ := Option.map_eq_some_iff.mp h
    exact isOf_of_invocation? hpath hi
  | case2 g word rest _ ih =>
    obtain ⟨next, hnext, hrest⟩ := Option.bind_eq_some_iff.mp h
    obtain ⟨hword, hne⟩ := path_of_withPath hnext
    exact ih next (by rw [hword]; simpa using hne) hrest
  | case3 =>
    obtain rfl := Option.some.inj h
    rfl
  | case4 g word rest _ ih =>
    obtain ⟨next, hnext, hrest⟩ := Option.bind_eq_some_iff.mp h
    exact ih next (by rw [path_of_withOption (.inr (.inr hnext))]; exact hpath) hrest
  | case5 => cases h
  | case6 g word rest cs _ asked hasked =>
    obtain rfl := Option.some.inj h
    obtain rfl | ⟨-, hbefore⟩ := Letters.asked_of? hasked
    · rfl
    · cases hbefore
  | case7 g word rest cs _ given _ ih => exact ih hpath h
  | case8 g word rest _ ih =>
    obtain ⟨next, hnext, hrest⟩ := Option.bind_eq_some_iff.mp h
    exact ih next (by rw [path_of_withOption (.inr (.inl hnext))]; exact hpath) hrest
  | case9 g word rest value _ ih =>
    obtain ⟨next, hnext, hrest⟩ := Option.bind_eq_some_iff.mp h
    exact ih next (by rw [path_of_withOption (.inl ⟨value, hnext⟩)]; exact hpath) hrest
  | case10 => cases h
  | case11 g word _ value rest _ ih =>
    obtain ⟨next, hnext, hrest⟩ := Option.bind_eq_some_iff.mp h
    exact ih next (by rw [path_of_withOption (.inl ⟨value, hnext⟩)]; exact hpath) hrest
  | case12 => cases h
  | case13 g word rest _ =>
    obtain ⟨all, hall, hrest⟩ := Option.bind_eq_some_iff.mp h
    obtain ⟨i, hi, hr⟩ := Option.bind_eq_some_iff.mp hrest
    obtain rfl := Option.some.inj hr
    exact isOf_of_invocation? (path_of_foldlM_withPath hpath hall) hi

/-- What is read of one word, and of a second one where the first is the option for a name. -/
theorem gather_cons (word : String) (rest : List String) :
    gather command verbose g (word :: rest) =
      match Word.of command word with
      | .plain => (g.withPath word).bind fun next => gather command verbose next rest
      | .help => some (.help (.command command))
      | .verbose => g.withVerbose.bind fun next => gather command verbose next rest
      | .letters cs =>
        (Letters.of? (some command) g.verbose cs).bind fun
          | .asked request => some request
          | .verbose given => gather command verbose { g with verbose := given } rest
      | .ownFlag => g.withOwnFlag.bind fun next => gather command verbose next rest
      | .nameValue value => (g.withName value).bind fun next => gather command verbose next rest
      | .name =>
        match rest with
        | [] => none
        | value :: rest =>
          if isPlain value then (g.withName value).bind fun next => gather command verbose next rest else none
      | .endOfOptions => do
        let all ← rest.foldlM withPath g
        return .invoke (← all.invocation? command verbose) := by
  rw [gather.eq_def]
  cases hword : Word.of command word with
  | letters cs =>
    simp only [hword]
    cases Letters.of? (some command) g.verbose cs with
    | none => rfl
    | some found => cases found <;> rfl
  | name =>
    simp only [hword]
    cases rest <;> rfl
  | _ => simp only [hword, Option.bind_eq_bind]

/-- **What follows a request for help does not matter.** -/
theorem gather_append_of_help {words : List String} {topic : Topic}
    (h : gather command verbose g words = some (.help topic)) (more : List String) :
    gather command verbose g (words ++ more) = some (.help topic) := by
  fun_induction gather command verbose g words with
  | case1 g =>
    obtain ⟨i, -, hi⟩ := Option.map_eq_some_iff.mp h
    cases hi
  | case2 g word rest hword ih | case4 g word rest hword ih | case8 g word rest hword ih =>
    obtain ⟨next, hnext, hrest⟩ := Option.bind_eq_some_iff.mp h
    rw [List.cons_append, gather_cons, hword]
    exact Option.bind_eq_some_iff.mpr ⟨next, hnext, ih next hrest⟩
  | case3 g word rest hword =>
    rw [List.cons_append, gather_cons, hword]
    exact h
  | case5 => cases h
  | case6 g word rest cs hword asked hasked =>
    rw [List.cons_append, gather_cons, hword]
    exact Option.bind_eq_some_iff.mpr ⟨_, hasked, h⟩
  | case7 g word rest cs hword given hgiven ih =>
    rw [List.cons_append, gather_cons, hword]
    exact Option.bind_eq_some_iff.mpr ⟨_, hgiven, ih h⟩
  | case9 g word rest value hword ih =>
    obtain ⟨next, hnext, hrest⟩ := Option.bind_eq_some_iff.mp h
    rw [List.cons_append, gather_cons, hword]
    exact Option.bind_eq_some_iff.mpr ⟨next, hnext, ih next hrest⟩
  | case10 => cases h
  | case11 g word hword value rest hplain ih =>
    obtain ⟨next, hnext, hrest⟩ := Option.bind_eq_some_iff.mp h
    rw [List.cons_append, List.cons_append, gather_cons, hword]
    show (if isPlain value then (g.withName value).bind _ else none) = _
    rw [if_pos hplain]
    exact Option.bind_eq_some_iff.mpr ⟨next, hnext, ih next hrest⟩
  | case12 => cases h
  | case13 g word rest _ =>
    obtain ⟨all, -, hrest⟩ := Option.bind_eq_some_iff.mp h
    obtain ⟨i, -, hr⟩ := Option.bind_eq_some_iff.mp hrest
    cases hr

/-! ## The order of options and path -/

/-- What a word after a command can add. -/
inductive Part where
  | path (path : String)
  | name (name : String)
  | ownFlag
  | verbose

/-- Takes one part, if it is the first of its kind. -/
def add (g : Gathered) : Part → Option Gathered
  | .path path => g.withPath path
  | .name name => g.withName name
  | .ownFlag => g.withOwnFlag
  | .verbose => g.withVerbose

/-- The part that a word adds by itself; the option for a name does so only with an equals sign. -/
def part? (command : Command) (word : String) : Option Part :=
  match Word.of command word with
  | .plain => some (.path word)
  | .nameValue value => some (.name value)
  | .ownFlag => some .ownFlag
  | .verbose => some .verbose
  | .letters cs => if cs = ['v'] then some .verbose else none
  | _ => none

theorem ite_none_bind {α β : Type} {p : Prop} [Decidable p] (a : α) (f : α → Option β) :
    (if p then none else some a).bind f = if p then none else f a := by
  split <;> rfl

/-- Of two parts it does not matter which is taken first: each has a place of its own, and of two for the same place the
second is refused, whichever it is. -/
theorem add_comm (g : Gathered) (a b : Part) :
    ((g.add a).bind fun next => next.add b) = (g.add b).bind fun next => next.add a := by
  cases a <;> cases b <;>
    simp only [add, withPath, withName, withOwnFlag, withVerbose, ite_none_bind, Option.isSome_some, or_true, if_true] <;>
    split_ifs <;> rfl

theorem gather_cons_of_part {word : String} {part : Part} (h : part? command word = some part) (rest : List String) :
    gather command verbose g (word :: rest) = (g.add part).bind fun next => gather command verbose next rest := by
  rw [gather_cons]
  unfold part? at h
  cases hword : Word.of command word with
  | letters cs =>
    rw [hword] at h
    obtain ⟨rfl, hpart⟩ := Option.ite_none_right_eq_some.mp h
    obtain rfl := Option.some.inj hpart
    have hletters : Letters.of? (some command) g.verbose ['v'] =
        if g.verbose then none else some (.verbose true) := rfl
    show (Letters.of? (some command) g.verbose ['v']).bind _ =
      (if g.verbose then none else some { g with verbose := true }).bind _
    rw [hletters, ite_none_bind, ite_none_bind]
  | nameValue value =>
    rw [hword] at h
    cases h
    rfl
  | plain | ownFlag | verbose =>
    rw [hword] at h
    cases h
    rfl
  | _ =>
    rw [hword] at h
    cases h

/-- **Options and path after a command may come in any order**, as long as each is a word by itself. -/
theorem gather_perm {xs ys : List String} (hperm : xs.Perm ys) (h : ∀ word ∈ xs, (part? command word).isSome = true) :
    gather command verbose g xs = gather command verbose g ys := by
  induction hperm generalizing g with
  | nil => rfl
  | cons word _ ih =>
    obtain ⟨part, hpart⟩ := Option.isSome_iff_exists.mp (h word List.mem_cons_self)
    rw [gather_cons_of_part hpart, gather_cons_of_part hpart]
    congr 1
    funext next
    exact ih fun w hw => h w (List.mem_cons_of_mem word hw)
  | swap first second rest =>
    obtain ⟨a, ha⟩ := Option.isSome_iff_exists.mp (h second List.mem_cons_self)
    obtain ⟨b, hb⟩ := Option.isSome_iff_exists.mp (h first (List.mem_cons_of_mem second List.mem_cons_self))
    simp only [gather_cons_of_part ha, gather_cons_of_part hb, ← Option.bind_assoc, add_comm g a b]
  | trans hfirst _ ih ih' =>
    rw [ih h]
    exact ih' fun word hword => h word (hfirst.mem_iff.mpr hword)

end Gathered

/-! ## All arguments -/

section Arguments

variable {command : Command} {word : String}

theorem ofArguments?_cons (hword : Command.ofWord? word = some command) (rest : List String) :
    Request.ofArguments? (word :: rest) = Gathered.gather command false {} rest := by
  rw [Request.ofArguments?, Request.ofWords?.eq_def]
  simp only [hword]

theorem ofArguments?_perm (hword : Command.ofWord? word = some command) {xs ys : List String} (hperm : xs.Perm ys)
    (h : ∀ w ∈ xs, (Gathered.part? command w).isSome = true) :
    Request.ofArguments? (word :: xs) = Request.ofArguments? (word :: ys) := by
  rw [ofArguments?_cons hword, ofArguments?_cons hword, Gathered.gather_perm hperm h]

theorem ofArguments?_append_of_help (hword : Command.ofWord? word = some command) {words : List String} {topic : Topic}
    (h : Request.ofArguments? (word :: words) = some (.help topic)) (more : List String) :
    Request.ofArguments? (word :: (words ++ more)) = some (.help topic) := by
  rw [ofArguments?_cons hword] at h ⊢
  exact Gathered.gather_append_of_help h more

/-- **A command is never run on an empty path.** -/
theorem path_of_ofWords? {verbose : Bool} {words : List String} {i : Invocation}
    (h : Request.ofWords? verbose words = some (.invoke i)) : i.path ≠ "" := by
  fun_induction Request.ofWords? verbose words with
  | case1 => cases h
  | case2 verbose word rest command _ =>
    have hstart : ({} : Gathered).path ≠ some "" := by simp
    exact (Gathered.isOf_of_gather hstart h).2
  | case3 verbose rest _ =>
    obtain ⟨topic, -, htopic⟩ := Option.map_eq_some_iff.mp h
    cases htopic
  | case4 => cases h
  | case5 => cases h
  | case6 => cases h
  | case7 verbose rest _ _ ih => exact ih h
  | case8 verbose word rest _ c cs hletters hfound =>
    simp only [hletters, hfound] at h
    cases h
  | case9 verbose word rest _ c cs hletters asked hfound =>
    simp only [hletters, hfound] at h
    obtain rfl := Option.some.inj h
    rcases Letters.asked_of? hfound with hhelp | ⟨hversion, -⟩
    · cases hhelp
    · cases hversion
  | case10 verbose word rest _ c cs hletters given hfound _ _ _ _ ih =>
    simp only [hletters, hfound] at h
    exact ih h
  | case11 verbose word rest _ _ _ _ _ hletters =>
    split at h
    · next c cs hword => exact absurd hword (hletters c cs)
    · cases h

end Arguments

/-! ## Runs -/

variable {env env' : Environment} {arguments : List String}

/-- **What a run finds around it matters only to a command.** -/
theorem run_of_no_invocation (h : ∀ i, Request.ofArguments? arguments ≠ some (.invoke i)) :
    run env arguments = run env' arguments := by
  rw [run, run]
  cases hrequest : Request.ofArguments? arguments with
  | none => rfl
  | some request =>
    cases request with
    | invoke i => exact absurd hrequest (h i)
    | _ => rfl

/-- **A run has the status 2 exactly on a usage error**, and then it writes no output. -/
theorem run_status_eq_two_iff : (run env arguments).status = 2 ↔ Request.ofArguments? arguments = none := by
  rw [run]
  cases Request.ofArguments? arguments with
  | none => simp [Outcome.usageError]
  | some request =>
    cases request with
    | help topic => simp [Outcome.help]
    | version => simp [Outcome.version]
    | invoke i =>
      show (Outcome.ofPerformance _ (i.perform _)).status = 2 ↔ _
      rw [Outcome.ofPerformance]
      cases (i.perform (env.contents i.path)).result <;> simp

end GrammarText.CommandLine
