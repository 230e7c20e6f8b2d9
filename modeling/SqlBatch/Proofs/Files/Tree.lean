import SqlBatch.Files.Tree
import SqlBatch.Proofs.Run.Inputs
/-!
# Looking up paths in a tree

A walk from name to name finds what stands where all the names lead, if no file is on the way
(`files_eq_node?`).  So a path that a tree was made from is found again (`files_ofPaths`).
-/

namespace SqlBatch.FileTree

open Text

/-! ## Names -/

theorem names_ne_nil (path : Text) : names path ≠ [] := by
  cases path with
  | nil => exact List.cons_ne_nil _ _
  | cons c rest =>
      simp only [names, List.foldr_cons]
      split
      · exact List.cons_ne_nil _ _
      · split <;> exact List.cons_ne_nil _ _

theorem names_cons (c : Char) (rest : Text) :
    names (c :: rest) =
      if c = '/' then [] :: names rest
      else (c :: (names rest).headD []) :: (names rest).tail := by
  have hrest := names_ne_nil rest
  simp only [names, List.foldr_cons, beq_iff_eq] at hrest ⊢
  split
  · rfl
  · split
    · contradiction
    · next hcons => rw [hcons]; rfl

private theorem joinWith_names (path : Text) : joinWith ['/'] (names path) = path := by
  induction path with
  | nil => rfl
  | cons c rest ih =>
      obtain ⟨name, others, hnames⟩ := List.exists_cons_of_ne_nil (names_ne_nil rest)
      rw [names_cons, hnames]
      rw [hnames] at ih
      split
      · next hslash => rw [joinWith, ih, hslash, List.nil_append, List.singleton_append]; simp
      · cases others with
        | nil => exact congrArg (c :: ·) ih
        | cons _ _ => exact congrArg (c :: ·) ih

theorem names_injective : Function.Injective names :=
  Function.LeftInverse.injective joinWith_names

/-- A name that leads to what is in a directory, and to nothing else. -/
structure PlainName (name : Text) : Prop where
  ne_nil : name ≠ []
  ne_here : name ≠ ['.']
  ne_parent : name ≠ ['.', '.']
  size_le : Utf8.size name ≤ maxNameSize

structure PlainPath (path : Text) : Prop where
  names : ∀ name ∈ names path, PlainName name
  size_le : Utf8.size path ≤ maxPathSize
  null : '\x00' ∉ path

namespace PlainPath

variable {path : Text} (h : PlainPath path)

include h

theorem ne_nil : path ≠ [] := by
  rintro rfl
  exact (h.names [] (by decide)).ne_nil rfl

theorem head?_ne : path.head? ≠ some '/' := by
  intro hhead
  obtain ⟨rest, rfl⟩ := List.head?_eq_some_iff.1 hhead
  refine (h.names [] ?_).ne_nil rfl
  rw [names_cons, if_pos rfl]
  exact List.mem_cons_self

end PlainPath

/-! ## Walks -/

section Walk

variable {tree : FileTree}

/-- Where nothing is, there is nothing further on. -/
private theorem node?_append_eq_none {place : List Text} (h : tree.node? place = none)
    (more : List Text) : tree.node? (place ++ more) = none := by
  have hne : place ≠ [] := by
    rintro rfl
    contradiction
  have hany : ∀ entry ∈ tree, ¬ place <+: entry.1 := by
    unfold node? at h
    rw [if_neg (by simpa using hne)] at h
    split at h
    · contradiction
    · split at h
      · contradiction
      · next hnone => simpa using hnone
  have hfar : ∀ entry ∈ tree, ¬ place ++ more <+: entry.1 :=
    fun entry hentry hprefix => hany entry hentry ((List.prefix_append ..).trans hprefix)
  have hfind : tree.find? (·.1 == place ++ more) = none := by
    rw [List.find?_eq_none]
    intro entry hentry heq
    exact hfar entry hentry (beq_iff_eq.1 heq ▸ List.prefix_rfl)
  rw [node?, if_neg (by simp [hne]), hfind, if_neg]
  simpa using hfar

/-- No file stands at a place, so that a walk can go on from there. -/
def Passable (tree : FileTree) (place : List Text) : Prop :=
  ∀ node ∈ tree.node? place, ∃ size, node = .directory size

private theorem walk_plain {name : Text} {rest front : List Text} {size : Nat}
    (hnames : ∀ other ∈ name :: rest, PlainName other)
    (hway : ∀ mid back, mid ≠ [] → back ≠ [] → name :: rest = mid ++ back →
      Passable tree (front ++ mid)) :
    walk tree (.within front) (.directory size) (name :: rest) =
      match tree.node? (front ++ name :: rest) with
      | some node => .ok node
      | none => .error .notFound := by
  induction rest generalizing name front size with
  | nil =>
      have hname := hnames name List.mem_cons_self
      rw [walk, if_neg (by simp [hname.ne_nil, hname.ne_here]), if_neg hname.ne_parent,
        if_neg (Nat.not_lt.2 hname.size_le), child?]
      cases tree.node? (front ++ [name]) <;> rfl
  | cons next rest ih =>
      have hname := hnames name List.mem_cons_self
      have hplace : front ++ name :: next :: rest = front ++ [name] ++ next :: rest := by simp
      rw [walk, if_neg (by simp [hname.ne_nil, hname.ne_here]), if_neg hname.ne_parent,
        if_neg (Nat.not_lt.2 hname.size_le), child?, hplace]
      cases hnode : tree.node? (front ++ [name]) with
      | none =>
          rw [node?_append_eq_none hnode]
          rfl
      | some node =>
          obtain ⟨inner, rfl⟩ := hway [name] (next :: rest) (by simp) (by simp) rfl node hnode
          refine ih (fun other hother => hnames other (List.mem_cons_of_mem _ hother)) ?_
          intro mid back hmid hback hrest
          have hpass := hway (name :: mid) back (by simp) hback (by rw [hrest]; rfl)
          rwa [List.append_assoc, List.singleton_append]

theorem files_eq_node? {path : Text} (hplain : PlainPath path)
    (hway : ∀ mid back, mid ≠ [] → back ≠ [] → names path = mid ++ back → Passable tree mid) :
    tree.files path =
      match tree.node? (names path) with
      | some node => .ok node
      | none => .error .notFound := by
  obtain ⟨name, rest, hnames⟩ := List.exists_cons_of_ne_nil (names_ne_nil path)
  have hstart : (if path.head? = some '/' then Place.above else .within []) = .within [] :=
    if_neg hplain.head?_ne
  rw [files, if_neg (by simpa using hplain.null), if_neg (Nat.not_lt.2 hplain.size_le),
    if_neg (by simpa using hplain.ne_nil)]
  dsimp only
  rw [hstart, hnames]
  exact walk_plain (hnames ▸ hplain.names) (by rwa [hnames] at hway)

end Walk

/-! ## Trees made from paths -/

section OfPaths

variable {nodes : List (Text × Node)} {path : Text}

theorem find?_ofPaths (nodes : List (Text × Node)) (path : Text) :
    (ofPaths nodes).find? (·.1 == names path) = (nodes.lookup path).map ((names path, ·)) := by
  induction nodes with
  | nil => rfl
  | cons entry rest ih =>
      obtain ⟨other, node⟩ := entry
      rw [ofPaths, List.map_cons, List.find?_cons, List.lookup_cons]
      by_cases hsame : path = other
      · subst hsame
        simp
      · have hnames : (names other == names path) = false := by
          simpa using fun h => hsame (names_injective h).symm
        rw [hnames, beq_eq_false_iff_ne.2 hsame]
        exact ih

def Clear (nodes : List (Text × Node)) (path : Text) : Prop :=
  ∀ entry ∈ nodes, entry.1 ≠ path → names entry.1 <+: names path →
    ∃ size, entry.2 = .directory size

theorem Clear.passable (h : Clear nodes path) {mid back : List Text} (hback : back ≠ [])
    (hpath : names path = mid ++ back) : Passable (ofPaths nodes) mid := by
  intro node hnode
  unfold node? at hnode
  split at hnode
  · exact ⟨directorySize, (Option.some.inj hnode).symm⟩
  split at hnode
  · next entry found hfind =>
    obtain rfl := Option.some.inj hnode
    obtain ⟨⟨other, node⟩, hmem, hentry⟩ := List.mem_map.1 (List.mem_of_find?_eq_some hfind)
    obtain ⟨rfl, rfl⟩ := Prod.mk.inj hentry
    have hmid : names other = mid := by simpa using List.find?_some hfind
    have hne : other ≠ path := by
      rintro rfl
      rw [hmid] at hpath
      exact hback (List.self_eq_append_right.1 hpath)
    exact h (other, node) hmem hne ⟨back, by rw [hmid, hpath]⟩
  · split at hnode
    · exact ⟨directorySize, (Option.some.inj hnode).symm⟩
    · contradiction

theorem files_ofPaths {node : Node} (hplain : PlainPath path) (hclear : Clear nodes path)
    (hnode : nodes.lookup path = some node) : (ofPaths nodes).files path = .ok node := by
  have hfound : (ofPaths nodes).node? (names path) = some node := by
    rw [node?, if_neg (by simpa using names_ne_nil path), find?_ofPaths, hnode]
    rfl
  rw [files_eq_node? hplain fun _ _ _ hback hpath => hclear.passable hback hpath, hfound]

/-- A run on a file of the tree takes what the tree was made with. -/
theorem gives_ofPaths_iff {bytes stdin : List UInt8} {size limit : Nat}
    {hsize : size ≤ bytes.length} {script : Text} (hplain : PlainPath path) (hclear : Clear nodes path)
    (hnode : nodes.lookup path = some (.file bytes size hsize)) :
    (Input.file path).Gives (ofPaths nodes).files stdin limit script ↔
      Utf8.decode bytes = .ok script ∧ bytes.length ≤ limit := by
  simp [Input.Gives, Input.bytes?, files_ofPaths hplain hclear hnode]

end OfPaths

end SqlBatch.FileTree
