import TrafficRelay.FileTree

/-!
# Files in a tree

`FileTree.HoldsFile` compares a tree with an earlier one of which it differs by
one file only, and appending to that file keeps the relation.  Whatever happens
to files, `FileTree.KeepsDirectories` says that no directory is lost by it; so
a path under which a file was located leads to that file ever after.  Opening a
file for appending does no more than `FileTree.Creates` says.
-/

namespace TrafficRelay

private theorem lookup_filter_ne {α β : Type} [BEq α] [LawfulBEq α] [DecidableEq α]
    {key other : α} (different : other ≠ key) (entries : List (α × β)) :
    (entries.filter fun entry => entry.1 ≠ key).lookup other =
      entries.lookup other := by
  induction entries with
  | nil => rfl
  | cons entry rest induction =>
      obtain ⟨head, value⟩ := entry
      by_cases same : head = key
      · subst head
        have skipped : (other == key) = false := beq_false_of_ne different
        simpa [List.lookup_cons, skipped] using induction
      · have kept : ((head, value) :: rest).filter (fun entry => entry.1 ≠ key) =
            (head, value) :: rest.filter fun entry => entry.1 ≠ key := by
          simp [same]
        rw [kept, List.lookup_cons, List.lookup_cons, induction]

theorem bind_eq_ok {ε α β : Type} {first : Except ε α} {next : α → Except ε β}
    {result : β} :
    (first >>= next) = .ok result ↔
      ∃ value, first = .ok value ∧ next value = .ok result := by
  cases first with
  | error cause => simp [bind, Except.bind]
  | ok value => simp [bind, Except.bind]

namespace FileTree

/-- The root is a directory. -/
theorem entry?_root (tree : FileTree) : tree.entry? [] = some .directory :=
  if_pos rfl

theorem entry?_set_self (tree : FileTree) {location : Location}
    (below : location ≠ []) (entry : FileEntry) :
    FileTree.entry? (tree.set location entry) location = some entry := by
  simp [set, entry?, below]

theorem entry?_set_of_ne (tree : FileTree) {location other : Location}
    (different : other ≠ location) (entry : FileEntry) :
    FileTree.entry? (tree.set location entry) other = tree.entry? other := by
  have kept : (tree.set location entry).entries.lookup other =
      tree.entries.lookup other := by
    have skipped : (other == location) = false := beq_false_of_ne different
    simp only [set, List.lookup_cons, skipped]
    exact lookup_filter_ne different tree.entries
  simp only [kept, entry?]

theorem entry?_eq_of_contentAt {tree : FileTree} {location : Location}
    {content : Bytes} (found : tree.contentAt location = .ok content) :
    tree.entry? location = some (.file content) := by
  unfold contentAt at found
  split at found
  · rename_i present
    cases found
    exact present
  · cases found
  · cases found

/-- The file at a location has this content, and every other location and the
working directory are as in the tree before. -/
structure HoldsFile (before : FileTree) (location : Location) (content : Bytes)
    (after : FileTree) : Prop where
  content : after.contentAt location = .ok content
  others : ∀ other, other ≠ location → after.entry? other = before.entry? other
  workingDirectory : after.workingDirectory = before.workingDirectory

theorem holdsFile_set (tree : FileTree) {location : Location}
    (below : location ≠ []) (content : Bytes) :
    tree.HoldsFile location content (tree.set location (.file content)) where
  content := by rw [contentAt, entry?_set_self tree below]
  others _ different := entry?_set_of_ne tree different _
  workingDirectory := rfl

theorem HoldsFile.ne_root {before after : FileTree} {location : Location}
    {content : Bytes} (holds : before.HoldsFile location content after) :
    location ≠ [] := by
  rintro rfl
  have found := entry?_eq_of_contentAt holds.content
  rw [entry?_root] at found
  cases found

theorem HoldsFile.appendAt {before tree : FileTree} {location : Location}
    {content : Bytes} (holds : before.HoldsFile location content tree)
    (bytes : Bytes) :
    ∃ after, tree.appendAt location bytes = .ok after ∧
      before.HoldsFile location (content ++ bytes) after := by
  refine ⟨tree.set location (.file (content ++ bytes)), ?_, ?_⟩
  · rw [FileTree.appendAt, holds.content]
    rfl
  · obtain ⟨found, others, workingDirectory⟩ :=
      holdsFile_set tree holds.ne_root (content ++ bytes)
    refine ⟨found, ?_, workingDirectory.trans holds.workingDirectory⟩
    intro other different
    rw [others other different, holds.others other different]

theorem enter_eq_ok {tree : FileTree} {directory location : Location}
    {name : String} :
    tree.enter directory name = .ok location ↔
      descend directory name = .ok location ∧
        tree.entry? location = some .directory := by
  constructor
  · intro entered
    obtain ⟨there, descended, checked⟩ := bind_eq_ok.mp entered
    split at checked
    · cases checked
    · cases checked
    · rename_i found
      cases checked
      exact ⟨descended, found⟩
  · rintro ⟨descended, found⟩
    simp [enter, descended, found, bind, Except.bind]

/-- Every directory that was there still is, and relative paths start where they
did. -/
structure KeepsDirectories (before after : FileTree) : Prop where
  directories : ∀ location, before.entry? location = some .directory →
    after.entry? location = some .directory
  workingDirectory : after.workingDirectory = before.workingDirectory

theorem keepsDirectories_refl (tree : FileTree) : tree.KeepsDirectories tree :=
  ⟨fun _ found => found, rfl⟩

theorem HoldsFile.keepsDirectories {before after : FileTree} {location : Location}
    {content : Bytes} (holds : before.HoldsFile location content after)
    (noDirectory : before.entry? location ≠ some .directory) :
    before.KeepsDirectories after where
  directories there found := by
    have different : there ≠ location := by
      rintro rfl
      exact noDirectory found
    rw [holds.others there different, found]
  workingDirectory := holds.workingDirectory

namespace KeepsDirectories

variable {before after last : FileTree}

theorem trans (first : before.KeepsDirectories after)
    (second : after.KeepsDirectories last) : before.KeepsDirectories last where
  directories location found := second.directories location (first.directories location found)
  workingDirectory := second.workingDirectory.trans first.workingDirectory

/-- A path leads through directories only, so it leads where it led before. -/
theorem enter (keeps : before.KeepsDirectories after) {directory there : Location}
    {name : String} (entered : before.enter directory name = .ok there) :
    after.enter directory name = .ok there := by
  obtain ⟨descended, found⟩ := enter_eq_ok.mp entered
  exact enter_eq_ok.mpr ⟨descended, keeps.directories there found⟩

theorem foldlM_enter (keeps : before.KeepsDirectories after) {names : List String}
    {start directory : Location}
    (entered : names.foldlM before.enter start = .ok directory) :
    names.foldlM after.enter start = .ok directory := by
  induction names generalizing start with
  | nil => exact entered
  | cons name names induction =>
      rw [List.foldlM_cons] at entered ⊢
      obtain ⟨there, first, others⟩ := bind_eq_ok.mp entered
      exact bind_eq_ok.mpr ⟨there, keeps.enter first, induction others⟩

theorem resolve (keeps : before.KeepsDirectories after) {path : String}
    {target : Target} (resolved : before.resolve path = .ok target) :
    after.resolve path = .ok target := by
  unfold FileTree.resolve at resolved ⊢
  rw [keeps.workingDirectory]
  split at resolved
  · cases resolved
  · rename_i valid
    rw [if_neg valid]
    split at resolved
    · cases resolved
    · rename_i nonempty
      rw [if_neg nonempty]
      split at resolved
      · cases resolved
      · rename_i short
        rw [if_neg short]
        simp only at resolved ⊢
        split at resolved
        · exact resolved
        · obtain ⟨directory, entered, same⟩ := bind_eq_ok.mp resolved
          exact bind_eq_ok.mpr ⟨directory, keeps.foldlM_enter entered, same⟩

end KeepsDirectories

theorem locateFile_eq_ok {tree : FileTree} {path : String} {location : Location}
    (located : tree.locateFile path = .ok location) :
    tree.entry? location ≠ some .directory ∧
      ∃ target, tree.resolve path = .ok target ∧ target.directoryOnly = false ∧
        target.location = .ok location := by
  obtain ⟨target, resolved, located⟩ := bind_eq_ok.mp located
  split at located
  · cases located
  · rename_i anyKind
    have anyKind : target.directoryOnly = false := by simpa using anyKind
    obtain ⟨there, led, checked⟩ := bind_eq_ok.mp located
    split at checked
    · cases checked
    · rename_i found
      cases checked
      refine ⟨?_, target, resolved, anyKind, led⟩
      simp [found]
    · rename_i absent
      cases checked
      refine ⟨?_, target, resolved, anyKind, led⟩
      simp [absent]

theorem locateFile_of_resolve {tree : FileTree} {path : String} {target : Target}
    {location : Location} (resolved : tree.resolve path = .ok target)
    (anyKind : target.directoryOnly = false) (led : target.location = .ok location)
    (noDirectory : tree.entry? location ≠ some .directory) :
    tree.locateFile path = .ok location := by
  refine bind_eq_ok.mpr ⟨target, resolved, ?_⟩
  rw [if_neg (Bool.eq_false_iff.mp anyKind)]
  refine bind_eq_ok.mpr ⟨location, led, ?_⟩
  split
  · rename_i found
    exact (noDirectory found).elim
  · rfl
  · rfl

/-- Where both trees have the same directories, a path leads to the same file. -/
theorem KeepsDirectories.locateFile {before after : FileTree}
    (keeps : before.KeepsDirectories after) (back : after.KeepsDirectories before)
    {path : String} {location : Location} (located : before.locateFile path = .ok location) :
    after.locateFile path = .ok location := by
  obtain ⟨noDirectory, target, resolved, anyKind, led⟩ := locateFile_eq_ok located
  apply locateFile_of_resolve (keeps.resolve resolved) anyKind led
  exact fun found => noDirectory (back.directories location found)

/-- The path under which a file was located opens it as long as it is there. -/
theorem KeepsDirectories.openExisting {before after : FileTree}
    (keeps : before.KeepsDirectories after) {path : String} {location : Location}
    (located : before.locateFile path = .ok location) {content : Bytes}
    (present : after.contentAt location = .ok content) :
    after.openExisting path = .ok location := by
  obtain ⟨-, target, resolved, anyKind, led⟩ := locateFile_eq_ok located
  have found := entry?_eq_of_contentAt present
  refine bind_eq_ok.mpr ⟨target, keeps.resolve resolved, ?_⟩
  refine bind_eq_ok.mpr ⟨location, led, ?_⟩
  simp [found, anyKind]

theorem HoldsFile.openExisting {before after : FileTree} {location : Location}
    {content : Bytes} (holds : before.HoldsFile location content after)
    {path : String} (located : before.locateFile path = .ok location) :
    after.openExisting path = .ok location :=
  (holds.keepsDirectories (locateFile_eq_ok located).1).openExisting located holds.content

/-- What a file holds, and nothing where no file is. -/
def contentOrEmpty (tree : FileTree) (location : Location) : Bytes :=
  match tree.contentAt location with
  | .ok content => content
  | .error _ => []

theorem contentAt_congr {before after : FileTree} {location : Location}
    (same : after.entry? location = before.entry? location) :
    after.contentAt location = before.contentAt location := by
  simp only [contentAt, same]

theorem contentOrEmpty_of_contentAt {tree : FileTree} {location : Location}
    {content : Bytes} (present : tree.contentAt location = .ok content) :
    tree.contentOrEmpty location = content := by
  simp only [contentOrEmpty, present]

/-! ## Created files -/

/-- The tree with empty files at those of these locations where nothing was. -/
structure Creates (before : FileTree) (locations : List Location) (after : FileTree) :
    Prop where
  entries : ∀ location, after.entry? location =
    if before.entry? location = none ∧ location ∈ locations then some (.file [])
    else before.entry? location
  workingDirectory : after.workingDirectory = before.workingDirectory

theorem creates_nil (tree : FileTree) : tree.Creates [] tree where
  entries _ := (if_neg fun created => List.not_mem_nil created.2).symm
  workingDirectory := rfl

namespace Creates

variable {before after last : FileTree} {locations others : List Location}

theorem entry?_of_some (creates : before.Creates locations after) {location : Location}
    {entry : FileEntry} (found : before.entry? location = some entry) :
    after.entry? location = some entry := by
  rw [creates.entries, if_neg, found]
  rw [found]
  exact fun created => Option.some_ne_none entry created.1

theorem entry?_of_not_mem (creates : before.Creates locations after) {location : Location}
    (elsewhere : location ∉ locations) : after.entry? location = before.entry? location := by
  rw [creates.entries, if_neg]
  exact fun created => elsewhere created.2

theorem contentAt (creates : before.Creates locations after) {location : Location}
    (member : location ∈ locations) (noDirectory : before.entry? location ≠ some .directory) :
    after.contentAt location = .ok (before.contentOrEmpty location) := by
  unfold contentOrEmpty FileTree.contentAt
  cases found : before.entry? location with
  | none => rw [creates.entries, if_pos ⟨found, member⟩]
  | some entry =>
      rw [creates.entry?_of_some found]
      cases entry with
      | directory => exact (noDirectory found).elim
      | file content => rfl

theorem trans (first : before.Creates locations after) (second : after.Creates others last) :
    before.Creates (locations ++ others) last where
  entries location := by
    rw [second.entries, first.entries]
    cases before.entry? location with
    | none => by_cases early : location ∈ locations <;> simp [early]
    | some entry => simp
  workingDirectory := second.workingDirectory.trans first.workingDirectory

theorem keepsDirectories (creates : before.Creates locations after) :
    before.KeepsDirectories after where
  directories _ found := creates.entry?_of_some found
  workingDirectory := creates.workingDirectory

/-- No directory is created. -/
theorem keepsDirectories_back (creates : before.Creates locations after) :
    after.KeepsDirectories before where
  directories location found := by
    rw [creates.entries] at found
    split at found
    · cases found
    · exact found
  workingDirectory := creates.workingDirectory.symm

/-- Among the created files, every path leads where it led before. -/
theorem locateFile_iff (creates : before.Creates locations after) {path : String}
    {location : Location} :
    after.locateFile path = .ok location ↔ before.locateFile path = .ok location :=
  ⟨creates.keepsDirectories_back.locateFile creates.keepsDirectories,
    creates.keepsDirectories.locateFile creates.keepsDirectories_back⟩

end Creates

/-- Opening for appending changes nothing but that an absent file is created. -/
theorem creates_of_openForAppending {tree created : FileTree} {path : String}
    {location : Location} (opened : tree.openForAppending path = .ok (location, created)) :
    tree.locateFile path = .ok location ∧ tree.Creates [location] created := by
  obtain ⟨there, located, result⟩ := bind_eq_ok.mp opened
  split at result
  · rename_i absent
    cases result
    refine ⟨located, ?_, rfl⟩
    intro other
    by_cases here : other = location
    · subst other
      have below : location ≠ [] := by
        rintro rfl
        rw [entry?_root] at absent
        cases absent
      rw [entry?_set_self tree below, if_pos ⟨absent, List.mem_singleton_self location⟩]
    · rw [entry?_set_of_ne tree here, if_neg]
      exact fun created => here (List.mem_singleton.mp created.2)
  · rename_i entry found
    cases result
    refine ⟨located, ?_, rfl⟩
    intro other
    rw [if_neg]
    rintro ⟨absent, member⟩
    rw [List.mem_singleton.mp member, found] at absent
    cases absent

theorem openForAppending_eq_ok {tree created : FileTree} {path : String}
    {location : Location}
    (opened : tree.openForAppending path = .ok (location, created)) :
    tree.locateFile path = .ok location ∧
      tree.HoldsFile location (tree.contentOrEmpty location) created := by
  obtain ⟨located, creates⟩ := creates_of_openForAppending opened
  have here := creates.contentAt (List.mem_singleton_self location)
    (locateFile_eq_ok located).1
  refine ⟨located, here, ?_, creates.workingDirectory⟩
  intro other different
  exact creates.entry?_of_not_mem fun member => different (List.mem_singleton.mp member)

/-- A file that has been created for appending. -/
theorem openForAppending_created {tree created : FileTree} {path : String}
    {location : Location}
    (opened : tree.openForAppending path = .ok (location, created))
    (absent : tree.entry? location = none) :
    tree.locateFile path = .ok location ∧ tree.HoldsFile location [] created := by
  have nothing : tree.contentOrEmpty location = [] := by
    simp only [contentOrEmpty, contentAt, absent]
  rw [← nothing]
  exact openForAppending_eq_ok opened

end FileTree

end TrafficRelay
