import GrammarText.CommandLine.Folder

/-!
# What is read from a folder

Reading a path in a folder gives the bytes of one of its files or none.  In a folder whose entries do not contradict each
other a plain path, one without empty parts and dots, reads exactly the file that stands under it.

* `Folder.mem_of_contents`: what is read is a file of the folder, whatever the path;
* `Folder.follow_skipping`: empty parts and dots inside a path do not matter;
* `Folder.WellFormed`: entries under different plain paths, with nothing below a file;
* `Folder.contents_eq_ok_iff`: which file a plain path reads in such a folder, so that an entry is read under the path it
  was given (`Folder.contents_ofList`).
-/

namespace GrammarText.CommandLine

/-- A part of a path that goes down: neither empty nor one or two dots. -/
def IsName (part : String) : Prop :=
  part ≠ "" ∧ part ≠ "." ∧ part ≠ ".."

namespace Folder

variable {folder : Folder} {bytes : ByteArray}

theorem mem_of_node? {place : List String} (h : folder.node? place = some (.file bytes)) :
    (place, .file bytes) ∈ folder.entries := by
  unfold node? at h
  cases hlookup : folder.entries.lookup place with
  | some n =>
    rw [hlookup] at h
    obtain rfl := Option.some.inj h
    obtain ⟨before, after, hentries, -⟩ := List.lookup_eq_some_iff.mp hlookup
    rw [hentries]
    simp
  | none =>
    rw [hlookup] at h
    simp at h

/-- What a part that goes down leads to. -/
theorem follow_name {part : String} (h : IsName part) (place rest : List String) :
    folder.follow (some place) (part :: rest) =
      match folder.node? (place ++ [part]) with
      | none => .error .missing
      | some .directory => folder.follow (some (place ++ [part])) rest
      | some (.file bytes) => if rest = [] then .ok bytes else .error .notDirectory := by
  obtain ⟨hempty, hdot, hdots⟩ := h
  rw [follow] <;> first | rfl | assumption | exact fun _ => hdots

theorem follow_up {place : List String} (h : place ≠ []) (rest : List String) :
    folder.follow (some place) (".." :: rest) = folder.follow (some place.dropLast) rest := by
  cases place with
  | nil => exact absurd rfl h
  | cons part place => rfl

/-- Of what lies above the folder nothing is known. -/
theorem follow_above {part : String} (h : IsName part) (rest : List String) :
    folder.follow none (part :: rest) = .error .missing := by
  obtain ⟨hempty, hdot, hdots⟩ := h
  rw [follow] <;> assumption

/-- **What is read is a file of the folder.** -/
theorem mem_of_follow {place : Option (List String)} {parts : List String}
    (h : folder.follow place parts = .ok bytes) : ∃ place, (place, .file bytes) ∈ folder.entries := by
  fun_induction follow folder place parts with
  | case1 => cases h
  | case2 place rest ih => exact ih h
  | case3 place rest ih => exact ih h
  | case4 rest ih => exact ih h
  | case5 rest ih => exact ih h
  | case6 place rest hplace ih => exact ih h
  | case7 => cases h
  | case8 => cases h
  | case9 place part rest _ _ _ _ hnode ih => exact ih h
  | case10 place part _ _ _ _ found hnode =>
    obtain rfl := Except.ok.inj h
    exact ⟨_, mem_of_node? hnode⟩
  | case11 => cases h

theorem mem_of_contents {path : String} (h : folder.contents path = .ok bytes) :
    ∃ place, (place, .file bytes) ∈ folder.entries :=
  mem_of_follow h

/-- **Empty parts and dots inside a path do not matter.**  At its end they do: a file is no directory. -/
theorem follow_skipping {part : String} (hpart : part = "" ∨ part = ".") {ys : List String} (hys : ys ≠ [])
    (place : Option (List String)) (xs : List String) :
    folder.follow place (xs ++ part :: ys) = folder.follow place (xs ++ ys) := by
  induction place, xs using follow.induct folder with
  | case1 place => rcases hpart with rfl | rfl <;> rfl
  | case2 place rest ih => exact ih
  | case3 place rest ih => exact ih
  | case4 rest ih => exact ih
  | case5 rest ih => exact ih
  | case6 place rest hplace ih =>
    rw [List.cons_append, List.cons_append, follow_up hplace, follow_up hplace]
    exact ih
  | case7 name rest hempty hdot hdots =>
    rw [List.cons_append, List.cons_append, follow_above ⟨hempty, hdot, hdots⟩, follow_above ⟨hempty, hdot, hdots⟩]
  | case8 place name rest hempty hdot _ hdots hnode =>
    rw [List.cons_append, List.cons_append, follow_name ⟨hempty, hdot, hdots⟩, follow_name ⟨hempty, hdot, hdots⟩, hnode]
  | case9 place name rest hempty hdot _ hdots hnode ih =>
    rw [List.cons_append, List.cons_append, follow_name ⟨hempty, hdot, hdots⟩, follow_name ⟨hempty, hdot, hdots⟩, hnode]
    exact ih
  | case10 place name hempty hdot _ hdots found hnode =>
    rw [List.cons_append, List.cons_append, follow_name ⟨hempty, hdot, hdots⟩, follow_name ⟨hempty, hdot, hdots⟩, hnode]
    show (if [] ++ part :: ys = [] then _ else _) = if [] ++ ys = [] then _ else _
    rw [if_neg (by simp), if_neg (by simpa using hys)]
  | case11 place name rest hempty hdot _ hdots found hnode hrest =>
    rw [List.cons_append, List.cons_append, follow_name ⟨hempty, hdot, hdots⟩, follow_name ⟨hempty, hdot, hdots⟩, hnode]
    show (if rest ++ part :: ys = [] then _ else _) = if rest ++ ys = [] then _ else _
    rw [if_neg (by simp), if_neg (by simp [hrest])]

/-! ## Folders whose entries do not contradict each other -/

/-- A folder with its entries under different plain paths and nothing below a file. -/
structure WellFormed (folder : Folder) : Prop where
  /-- Each entry stands under a plain path. -/
  names : ∀ e ∈ folder.entries, e.1 ≠ [] ∧ ∀ part ∈ e.1, IsName part
  /-- No two entries stand under the same path. -/
  distinct : (folder.entries.map Prod.fst).Nodup
  /-- Below a file there is nothing. -/
  leaves : ∀ place bytes, (place, .file bytes) ∈ folder.entries → ∀ e ∈ folder.entries, place <+: e.1 → e.1 = place

namespace WellFormed

theorem node?_of_mem (h : folder.WellFormed) {place : List String} {n : Node} (hmem : (place, n) ∈ folder.entries) :
    folder.node? place = some n := by
  obtain ⟨before, after, hentries⟩ := List.append_of_mem hmem
  have hnew : place ∉ before.map Prod.fst := by
    have hdistinct := h.distinct
    rw [hentries, List.map_append, List.map_cons, List.nodup_append] at hdistinct
    exact fun hbefore => hdistinct.2.2 place hbefore place List.mem_cons_self rfl
  have hlookup : folder.entries.lookup place = some n := by
    refine List.lookup_eq_some_iff.mpr ⟨before, after, hentries, fun p hp => ?_⟩
    rw [bne_iff_ne]
    rintro rfl
    exact hnew (List.mem_map_of_mem hp)
  rw [node?, hlookup]

theorem node?_eq_file_iff (h : folder.WellFormed) {place : List String} :
    folder.node? place = some (.file bytes) ↔ (place, .file bytes) ∈ folder.entries :=
  ⟨mem_of_node?, h.node?_of_mem⟩

/-- On the way to an entry there are directories. -/
theorem node?_of_append_mem (h : folder.WellFormed) {place : List String} {part : String} {rest : List String} {n : Node}
    (hmem : (place ++ part :: rest, n) ∈ folder.entries) : folder.node? place = some .directory := by
  have hfront : place <+: place ++ part :: rest := List.prefix_append place _
  cases hnode : folder.node? place with
  | none =>
    have hany : (folder.entries.any fun e => place.isPrefixOf e.1) = true :=
      List.any_eq_true.mpr ⟨_, hmem, List.isPrefixOf_iff_prefix.mpr hfront⟩
    rw [node?, if_pos hany] at hnode
    cases hlookup : folder.entries.lookup place <;> simp [hlookup] at hnode
  | some found =>
    cases found with
    | directory => rfl
    | file bytes =>
      have hsame : place ++ part :: rest = place :=
        h.leaves place bytes (mem_of_node? hnode) _ hmem hfront
      simp at hsame

/-- **Following plain parts leads to the file that stands there.** -/
theorem follow_eq_ok_iff (h : folder.WellFormed) {place parts : List String} (hparts : parts ≠ [])
    (hnames : ∀ part ∈ parts, IsName part) :
    folder.follow (some place) parts = .ok bytes ↔ (place ++ parts, .file bytes) ∈ folder.entries := by
  induction parts generalizing place with
  | nil => exact absurd rfl hparts
  | cons part rest ih =>
    rw [follow_name (hnames part List.mem_cons_self)]
    cases rest with
    | nil =>
      rw [← h.node?_eq_file_iff]
      cases folder.node? (place ++ [part]) with
      | none => simp
      | some found =>
        cases found with
        | directory => simp [follow]
        | file found => simp
    | cons next rest =>
      have hgoes : folder.follow (some (place ++ [part])) (next :: rest) = .ok bytes ↔
          (place ++ part :: next :: rest, .file bytes) ∈ folder.entries := by
        rw [ih (by simp) fun p hp => hnames p (List.mem_cons_of_mem part hp), List.append_assoc, List.singleton_append]
      have hway (hmem : (place ++ part :: next :: rest, .file bytes) ∈ folder.entries) :
          folder.node? (place ++ [part]) = some .directory := by
        rw [← List.singleton_append, ← List.append_assoc] at hmem
        exact h.node?_of_append_mem hmem
      -- The entry looked for makes a directory of the way to it, so that nothing else can stand there.
      cases hnode : folder.node? (place ++ [part]) with
      | none =>
        refine ⟨fun hread => (by cases hread), fun hmem => ?_⟩
        rw [hway hmem] at hnode
        cases hnode
      | some found =>
        cases found with
        | directory => exact hgoes
        | file found =>
          refine ⟨fun hread => (by simp at hread), fun hmem => ?_⟩
          rw [hway hmem] at hnode
          cases hnode

end WellFormed

/-- **A plain path reads exactly the file that stands under it**, if the folder is well-formed. -/
theorem contents_eq_ok_iff (h : folder.WellFormed) {path : String} (hpath : ∀ part ∈ pathParts path, IsName part) :
    folder.contents path = .ok bytes ↔ (pathParts path, .file bytes) ∈ folder.entries := by
  have hbelow : path.toList.head? ≠ some '/' := by
    intro hslash
    obtain ⟨cs, hcs⟩ := List.head?_eq_some_iff.mp hslash
    have hempty : "" ∈ pathParts path := by
      rw [pathParts, hcs, List.splitOn_cons_eq_if_modifyHead, if_pos (by decide)]
      exact List.mem_cons_self
    exact (hpath "" hempty).1 rfl
  have hparts : pathParts path ≠ [] := by
    rw [pathParts, Ne, List.map_eq_nil_iff]
    exact List.splitOn_ne_nil '/' path.toList
  rw [contents, if_neg hbelow]
  exact h.follow_eq_ok_iff hparts hpath

/-- A file of a well-formed folder is read under the path it was given. -/
theorem contents_ofList {entries : List (String × Node)} (h : (ofList entries).WellFormed) {path : String}
    (hmem : (path, .file bytes) ∈ entries) : (ofList entries).contents path = .ok bytes := by
  have hentry : (pathParts path, .file bytes) ∈ (ofList entries).entries :=
    List.mem_map.mpr ⟨(path, .file bytes), hmem, rfl⟩
  exact (contents_eq_ok_iff h (h.names _ hentry).2).mpr hentry

end Folder

end GrammarText.CommandLine
