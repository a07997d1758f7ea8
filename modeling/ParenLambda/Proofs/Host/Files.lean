import ParenLambda.Host.World

/-!
# Writing to a file or a stream

A text written to a file is what the file holds afterwards, under the very path it was written to, and no
other file changes (`ParenLambda.FileTree.wrote_of_writeText`). The first of these is about following paths:
a path that leads to a file, or to a name that is free, goes through directories until its last name, and
writing to the file takes none of them away. Whether a path can be written to is the same for all texts
(`ParenLambda.FileTree.Takes.exists_writeText`).

The bytes of a file are read as text exactly if they are the UTF-8 form of one
(`ParenLambda.World.decode_eq_ok_iff`).

A stream takes bytes if there is room for all of them; otherwise the first of them are written, and from
then on there is no room at all (`ParenLambda.Stream.write_of_not_takes`).
-/

namespace ParenLambda

namespace FileTree

variable {tree : FileTree} {path other : FilePath} {content : FileContent}

/-! ### The files of a tree -/

@[simp] theorem file?_write_self (tree : FileTree) (path : FilePath) (content : FileContent) :
    (tree.write path content).file? path = some content := by
  simp [file?, write]

theorem lookup_filter_ne {entries : List (FilePath × FileContent)} (h : other ≠ path) :
    (entries.filter (·.1 != path)).lookup other = entries.lookup other := by
  induction entries with
  | nil => rfl
  | cons entry rest ih =>
    obtain ⟨key, held⟩ := entry
    by_cases hkey : key = path
    · have hother : (other == key) = false := by simpa [hkey] using h
      rw [List.filter_cons_of_neg (by simpa using hkey), List.lookup_cons, hother, ih]
    · rw [List.filter_cons_of_pos (by simpa using hkey), List.lookup_cons, List.lookup_cons, ih]

theorem file?_write_of_ne (tree : FileTree) (content : FileContent) (h : other ≠ path) :
    (tree.write path content).file? other = tree.file? other := by
  have hother : (other == path) = false := by simpa using h
  rw [file?, write, List.lookup_cons, hother]
  exact lookup_filter_ne h

/-- Writing takes no directory away. -/
theorem isDirectory_write (h : tree.isDirectory other) :
    (tree.write path content).isDirectory other := by
  simp only [isDirectory, Bool.or_eq_true, List.any_eq_true] at h ⊢
  refine h.imp_right ?_
  rintro ⟨⟨key, held⟩, hmem, hbelow⟩
  -- Only the file at the path itself is taken away, and the new one is in the same directory.
  by_cases hkey : key = path
  · exact ⟨(path, content), List.mem_cons_self, by rwa [← hkey]⟩
  · refine ⟨(key, held), List.mem_cons_of_mem _ (List.mem_filter.mpr ⟨hmem, ?_⟩), hbelow⟩
    simpa using hkey

/-! ### Following a path -/

/-- The path of the tree under which a text is filed that is written to a place. -/
def Place.target? : Place → Option FilePath
  | file path _ => some path
  | free path => some path
  | directory _ => none
  | outside => none

theorem look_cases (tree : FileTree) (path : FilePath) :
    tree.look path = .directory (some path) ∧ tree.isDirectory path ∧ tree.file? path = none ∨
      (tree.look path).target? = some path := by
  rw [look]
  split
  · exact .inr rfl
  · rename_i hfile
    split
    · exact .inl ⟨rfl, ‹_›, hfile⟩
    · exact .inr rfl

@[simp] theorem look_write_self (tree : FileTree) (path : FilePath) (content : FileContent) :
    (tree.write path content).look path = .file path content := by
  rw [look, file?_write_self]

/-- A directory stays one when another path is written to. -/
theorem look_write_of_directory (h : tree.isDirectory other) (hfile : tree.file? other = none)
    (hne : other ≠ path) : (tree.write path content).look other = .directory (some other) := by
  rw [look, file?_write_of_ne tree content hne, hfile]
  exact if_pos (isDirectory_write h)

/-- **One step from a directory** goes to another directory or looks at a path, whatever the tree holds,
or it leads to nothing that can be written to. -/
theorem follow_step (directory : Option FilePath) (name : String) (rest : List String) :
    (∃ next, ∀ tree : FileTree,
        tree.follow (.directory directory) (name :: rest) = tree.follow (.directory next) rest) ∨
      (∃ path, ∀ tree : FileTree,
        tree.follow (.directory directory) (name :: rest) = tree.follow (tree.look path) rest) ∨
      ∀ (tree : FileTree) (place : Place),
        tree.follow (.directory directory) (name :: rest) = .ok place → place.target? = none := by
  cases directory with
  | none =>
    by_cases hstay : (name == "" || name == "." || name == "..") = true
    · exact .inl ⟨none, fun tree => by rw [follow, if_pos hstay]⟩
    · refine .inr (.inr fun tree place h => ?_)
      rw [follow, if_neg hstay] at h
      cases rest with
      | nil =>
        cases h
        rfl
      | cons next rest => cases h
  | some path =>
    by_cases hstay : (name == "" || name == ".") = true
    · exact .inl ⟨some path, fun tree => by rw [follow, if_pos hstay]⟩
    by_cases hup : (name == "..") = true
    · by_cases hroot : path.isEmpty = true
      · exact .inl ⟨none, fun tree => by rw [follow, if_neg hstay, if_pos hup, if_pos hroot]⟩
      · exact .inl ⟨some path.dropLast,
          fun tree => by rw [follow, if_neg hstay, if_pos hup, if_neg hroot]⟩
    by_cases hlong : longestName < name.utf8ByteSize
    · refine .inr (.inr fun tree place h => ?_)
      rw [follow, if_neg hstay, if_neg hup, if_pos hlong] at h
      cases h
    · exact .inr (.inl ⟨path ++ [name],
        fun tree => by rw [follow, if_neg hstay, if_neg hup, if_neg hlong]⟩)

/-- From a place that can be written to nothing follows. -/
theorem eq_nil_of_follow {start place : Place} {names : List String}
    (h : tree.follow start names = .ok place) (hstart : start.target? = some path) :
    names = [] ∧ start = place := by
  cases names with
  | nil =>
    rw [follow] at h
    exact ⟨rfl, Except.ok.inj h⟩
  | cons name rest => cases start <;> cases hstart <;> cases h

/-- What a path leads to is what the tree holds there. -/
theorem look_of_follow {names : List String} {directory : Option FilePath} {place : Place}
    (h : tree.follow (.directory directory) names = .ok place) (hplace : place.target? = some path) :
    tree.look path = place := by
  induction names generalizing directory with
  | nil =>
    rw [follow] at h
    cases h
    cases hplace
  | cons name rest ih =>
    -- The last step that looks at a path has found the place; after it there are no names left.
    rcases follow_step directory name rest with ⟨next, hstep⟩ | ⟨seen, hstep⟩ | hstep
    · exact ih (hstep tree ▸ h)
    · rw [hstep] at h
      rcases look_cases tree seen with ⟨hlook, -⟩ | hlook
      · exact ih (hlook ▸ h)
      · obtain ⟨-, rfl⟩ := eq_nil_of_follow h hlook
        cases hlook.symm.trans hplace
        rfl
    · cases (hstep tree place h).symm.trans hplace

/-- **A path leads to what was written under it.** -/
theorem follow_write {names : List String} {directory : Option FilePath} {place : Place}
    (h : tree.follow (.directory directory) names = .ok place) (hplace : place.target? = some path) :
    (tree.write path content).follow (.directory directory) names = .ok (.file path content) := by
  have hpath := look_of_follow h hplace
  induction names generalizing directory with
  | nil =>
    rw [follow] at h
    cases h
    cases hplace
  | cons name rest ih =>
    rcases follow_step directory name rest with ⟨next, hstep⟩ | ⟨seen, hstep⟩ | hstep
    · rw [hstep] at h ⊢
      exact ih h
    · rw [hstep] at h ⊢
      rcases look_cases tree seen with ⟨hlook, hdirectory, hfile⟩ | hlook
      · -- A directory on the way is not where the text is filed, so it is still there.
        have hne : seen ≠ path := by
          rintro rfl
          rw [← hpath, hlook] at hplace
          cases hplace
        rw [look_write_of_directory hdirectory hfile hne]
        exact ih (hlook ▸ h)
      · obtain ⟨rfl, rfl⟩ := eq_nil_of_follow h hlook
        cases hlook.symm.trans hplace
        rw [look_write_self, follow]
    · cases (hstep tree place h).symm.trans hplace

/-- A path given as text is refused or followed from some directory, whatever the tree holds. -/
theorem resolve_cases (root name : String) :
    (∃ refusal, ∀ tree : FileTree, tree.resolve root name = .error refusal) ∨
      ∃ directory names, ∀ tree : FileTree,
        tree.resolve root name = tree.follow (.directory directory) names := by
  by_cases hempty : name.isEmpty = true
  · exact .inl ⟨.notFound, fun tree => by rw [resolve, if_pos hempty]⟩
  by_cases hnull : name.contains '\x00' = true
  · exact .inl ⟨.nullInPath, fun tree => by rw [resolve, if_neg hempty, if_pos hnull]⟩
  by_cases hroot : (name == root) = true
  · refine .inr ⟨some [], [], fun tree => ?_⟩
    rw [resolve, if_neg hempty, if_neg hnull, if_pos hroot, follow]
  cases hbelow : name.dropPrefix? (root ++ "/") with
  | some rest =>
    refine .inr ⟨some [], rest.toString.splitOn "/", fun tree => ?_⟩
    rw [resolve, if_neg hempty, if_neg hnull, if_neg hroot, hbelow]
  | none =>
    refine .inr ⟨if name.startsWith "/" then none else some [], name.splitOn "/", fun tree => ?_⟩
    simp only [resolve, if_neg hempty, if_neg hnull, if_neg hroot, hbelow]
    split <;> rfl

/-- **A path given as text leads to what was written under it.** -/
theorem resolve_write {root name : String} {place : Place} (h : tree.resolve root name = .ok place)
    (hplace : place.target? = some path) :
    (tree.write path content).resolve root name = .ok (.file path content) := by
  rcases resolve_cases root name with ⟨refusal, hresolve⟩ | ⟨directory, names, hresolve⟩
  · cases (hresolve tree).symm.trans h
  · rw [hresolve] at h ⊢
    exact follow_write h hplace

/-! ### Writing a text -/

/-- Whether a path is written as that of a directory. -/
def isSlashed (name : String) : Bool :=
  name.endsWith "/" && name != "/"

/-- **What can be written to**: a path that leads to a file, or to a name that is free, and is not
written as that of a directory. -/
def Takes (tree : FileTree) (root name : String) (path : FilePath) : Prop :=
  isSlashed name = false ∧ ∃ place, tree.resolve root name = .ok place ∧ place.target? = some path

/-- A text can be written to such a path, whatever the text is, and is then filed under it. -/
theorem Takes.exists_writeText {root name : String} (h : tree.Takes root name path) (text : String) :
    ∃ content, content.bytes = text.toUTF8 ∧
      tree.writeText root name text = .ok (tree.write path content) := by
  obtain ⟨hslashed, place, hresolve, hplace⟩ := h
  have hslashed' : ¬(name.endsWith "/" && name != "/") = true := by simpa [isSlashed] using hslashed
  simp only [writeText, if_neg hslashed', hresolve]
  cases place <;> cases hplace
  · exact ⟨_, rfl, rfl⟩
  · exact ⟨_, rfl, rfl⟩

/-- A text can be written to no other path. -/
theorem exists_takes_of_writeText {root name text : String} {after : FileTree}
    (h : tree.writeText root name text = .ok after) : ∃ path, tree.Takes root name path := by
  simp only [writeText] at h
  split at h
  · cases h
  rename_i place hplace
  split at h
  · cases h
  rename_i hslashed
  rw [if_neg hslashed] at hplace
  have htakes : isSlashed name = false := by simpa [isSlashed] using hslashed
  split at h <;> cases h
  · exact ⟨_, htakes, _, hplace, rfl⟩
  · exact ⟨_, htakes, _, hplace, rfl⟩

/-- **A tree after a text was written**: the path leads to a file with that text, and no other file and no
directory has changed. -/
structure Wrote (before : FileTree) (root name text : String) (after : FileTree) : Prop where
  /-- Reading the file gives the text. -/
  read : after.read root name = .ok text.toUTF8
  /-- Nothing else has changed. -/
  frame : ∃ path, ∀ other, other ≠ path → after.file? other = before.file? other
  directories : after.directories = before.directories

/-- **A file holds the text that was written to it**, and the other files are as they were. -/
theorem wrote_of_writeText {root name text : String} {after : FileTree}
    (h : tree.writeText root name text = .ok after) : tree.Wrote root name text after := by
  obtain ⟨path, htakes⟩ := exists_takes_of_writeText h
  obtain ⟨content, hbytes, hwrite⟩ := htakes.exists_writeText text
  obtain ⟨-, place, hresolve, hplace⟩ := htakes
  cases h.symm.trans hwrite
  refine ⟨?_, ⟨path, fun other => file?_write_of_ne tree content⟩, rfl⟩
  rw [FileTree.read, resolve_write hresolve hplace, ← hbytes]

end FileTree

namespace Stream

variable {stream : Stream} {bytes : ByteArray}

/-- **A stream takes some bytes**: there is room for all of them. -/
def Takes (stream : Stream) (bytes : ByteArray) : Prop :=
  ∀ room, stream.room = some room → bytes.size ≤ room

theorem Takes.exists_write (h : stream.Takes bytes) :
    ∃ room, stream.write bytes = (.ok (), ⟨stream.bytes ++ bytes, room⟩) := by
  rw [write]
  split
  · exact ⟨_, rfl⟩
  · rename_i room hroom
    rw [if_pos (h room hroom)]
    exact ⟨_, rfl⟩

/-- **What a stream does not take is cut off**, and there is no room for more. -/
theorem write_of_not_takes (h : ¬stream.Takes bytes) :
    ∃ count < bytes.size, stream.write bytes =
      (.error .noSpace, ⟨stream.bytes ++ bytes.extract 0 count, some 0⟩) := by
  cases hroom : stream.room with
  | none => exact absurd (fun room hsome => by cases hroom.symm.trans hsome) h
  | some room =>
    have hlt : room < bytes.size := by
      refine Nat.lt_of_not_le fun hle => h fun other hother => ?_
      cases hroom.symm.trans hother
      exact hle
    refine ⟨room, hlt, ?_⟩
    rw [write, hroom]
    exact if_neg (Nat.not_le.mpr hlt)

theorem not_takes_of_full {text : String} (hfull : stream.room = some 0) (htext : text ≠ "") :
    ¬stream.Takes text.toUTF8 := by
  intro h
  have hsize : text.utf8ByteSize = 0 := Nat.le_zero.mp (h 0 hfull)
  exact htext (String.utf8ByteSize_eq_zero_iff.mp hsize)

end Stream

namespace World

/-- **Bytes are text exactly if they are the UTF-8 form of it.** -/
theorem decode_eq_ok_iff {bytes : ByteArray} {text : String} :
    decode bytes = .ok text ↔ bytes = text.toUTF8 := by
  rw [decode, String.fromUTF8?]
  constructor
  · intro h
    split at h
    · rename_i found hfound
      split at hfound <;> cases hfound
      cases h
      rfl
    · cases h
  · rintro rfl
    have hvalid : text.toUTF8.IsValidUTF8 := text.isValidUTF8
    rw [dif_pos hvalid]
    rfl

variable {world : World} {name text : String}

/-- Writing to a file changes nothing but the files. -/
theorem exists_of_writeFile {after : World} (h : world.writeFile name text = .ok after) :
    ∃ files, world.files.writeText world.directory name text = .ok files ∧
      after = { world with files := files } := by
  rw [writeFile] at h
  split at h
  · cases h
    exact ⟨_, ‹_›, rfl⟩
  · cases h

theorem not_takes_of_writeFile {refusal : Refusal} (h : world.writeFile name text = .error refusal)
    (path : FilePath) : ¬world.files.Takes world.directory name path := by
  intro htakes
  obtain ⟨content, -, hwrite⟩ := htakes.exists_writeText text
  rw [writeFile, hwrite] at h
  cases h

end World

end ParenLambda
