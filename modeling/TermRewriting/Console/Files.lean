/-!
# Files

Why a file cannot be read or written, and a small file tree held in memory. The tree has a fixed set
of directories and the texts of the files in them; it answers like a disk with nothing else on it,
so that a run of the program can be told in full without one.

A path is followed from left to right. All names but the last have to lead to directories; the last
one is looked at only when the file is opened, because reading and writing differ there: a new file
cannot be written under a name with a slash behind it.

Results:
* `FileTree.read_write`: what was written is read back.
-/
namespace TermRewriting

/-- Why a file cannot be used: the number of the cause and its description. -/
structure FileError where
  code : Nat
  description : String
  deriving DecidableEq, Repr

namespace FileError

def message (e : FileError) : String := e.description ++ " (os error " ++ toString e.code ++ ")"

def notFound : FileError := ⟨2, "No such file or directory"⟩

def notDirectory : FileError := ⟨20, "Not a directory"⟩

def isDirectory : FileError := ⟨21, "Is a directory"⟩

def nameTooLong : FileError := ⟨36, "File name too long"⟩

end FileError

/-- Names on the way from the root, the outermost first. -/
abbrev Place := List String

/-- Directories, the texts of files, and the directory that relative paths start from. -/
structure FileTree where
  here : Place
  directories : List Place
  files : List (Place × String)
  deriving Repr

namespace FileTree

def textAt (t : FileTree) (p : Place) : Option String :=
  (t.files.find? fun file => file.1 = p).map Prod.snd

/-- The number of bytes that a name may have. -/
def longestName : Nat := 255

/-- The number of bytes that a path may have. -/
def longestPath : Nat := 4095

/-- Where a name leads that is not the last one of a path. -/
def enter (t : FileTree) (directory : Place) (name : String) : Except FileError Place :=
  if name = "." then .ok directory
  else if name = ".." then .ok directory.dropLast
  else if longestName < name.utf8ByteSize then .error .nameTooLong
  else if directory ++ [name] ∈ t.directories then .ok (directory ++ [name])
  else if (t.textAt (directory ++ [name])).isSome then .error .notDirectory
  else .error .notFound

def walk (t : FileTree) : (directory : Place) → (names : List String) → Except FileError Place
  | directory, [] => .ok directory
  | directory, name :: rest =>
    match t.enter directory name with
    | .error e => .error e
    | .ok next => t.walk next rest

/-- Where a path leads, as far as its last name. -/
inductive Target where
  /-- To a directory, without a name for it. -/
  | directory
  /-- To a name in a directory; `slashed` says whether a slash stands behind it. -/
  | entry (directory : Place) (name : String) (slashed : Bool)
  deriving DecidableEq, Repr

/-- Where names lead one by one. -/
def follow (t : FileTree) (start : Place) (names : List String) (slashed : Bool) :
    Except FileError Target :=
  match names.getLast? with
  | none => .ok .directory
  | some name =>
    match t.walk start names.dropLast with
    | .error e => .error e
    | .ok directory =>
      if name = "." ∨ name = ".." then .ok .directory else .ok (.entry directory name slashed)

/-- Where a path leads. A path that begins with a slash starts from the root; several slashes in a
row count as one. -/
def target (t : FileTree) (path : String) : Except FileError Target :=
  if longestPath < path.utf8ByteSize then .error .nameTooLong
  else if path.isEmpty then .error .notFound
  else
    t.follow (if path.startsWith "/" then [] else t.here) ((path.splitOn "/").filter (· ≠ ""))
      (path.endsWith "/")

/-- The text of the file that a path leads to. -/
def readTarget (t : FileTree) : Target → Except FileError String
  | .directory => .error .isDirectory
  | .entry directory name slashed =>
    if longestName < name.utf8ByteSize then .error .nameTooLong
    else if directory ++ [name] ∈ t.directories then .error .isDirectory
    else
      match t.textAt (directory ++ [name]) with
      | none => .error .notFound
      | some text => if slashed then .error .notDirectory else .ok text

/-- The place of the file to be written, which may be new. -/
def placeToWrite (t : FileTree) : Target → Except FileError Place
  | .directory => .error .isDirectory
  | .entry directory name slashed =>
    if slashed then .error .isDirectory
    else if longestName < name.utf8ByteSize then .error .nameTooLong
    else if directory ++ [name] ∈ t.directories then .error .isDirectory
    else .ok (directory ++ [name])

def read (t : FileTree) (path : String) : Except FileError String :=
  match t.target path with
  | .error e => .error e
  | .ok target => t.readTarget target

/-- The tree with a text at a place, in place of what was there. -/
def put (t : FileTree) (p : Place) (text : String) : FileTree :=
  { t with files := (p, text) :: t.files.filter fun file => file.1 ≠ p }

/-- Writes a file, which may be new. -/
def write (t : FileTree) (path text : String) : Except FileError FileTree :=
  match t.target path with
  | .error e => .error e
  | .ok target =>
    match t.placeToWrite target with
    | .error e => .error e
    | .ok p => .ok (t.put p text)

theorem read_eq_of_target {t : FileTree} {path : String} {target : Target}
    (h : t.target path = .ok target) : t.read path = t.readTarget target := by
  simp [read, h]

theorem textAt_put (t : FileTree) (p : Place) (text : String) :
    (t.put p text).textAt p = some text := by
  simp [put, textAt]

/-! ## What was written is read back -/

theorem enter_ok {t u : FileTree} (h : t.directories = u.directories) {p q : Place} {name : String}
    (he : t.enter p name = .ok q) : u.enter p name = .ok q := by
  unfold enter at he ⊢
  rw [← h]
  by_cases h₁ : name = "."
  · simpa [h₁] using he
  by_cases h₂ : name = ".."
  · simpa [h₁, h₂] using he
  by_cases h₃ : longestName < name.utf8ByteSize
  · simp [h₁, h₂, h₃] at he
  by_cases h₄ : p ++ [name] ∈ t.directories
  · simpa [h₁, h₂, h₃, h₄] using he
  · simp only [h₁, h₂, h₃, h₄, if_false] at he
    split at he <;> cases he

theorem walk_ok {t u : FileTree} (h : t.directories = u.directories) {q : Place} :
    ∀ {names : List String} {p : Place}, t.walk p names = .ok q → u.walk p names = .ok q
  | [], _, hw => hw
  | name :: rest, p, hw => by
    unfold walk at hw ⊢
    cases he : t.enter p name with
    | error e => rw [he] at hw; cases hw
    | ok next =>
      rw [he] at hw
      rw [enter_ok h he]
      exact walk_ok h hw

theorem follow_ok {t u : FileTree} (h : t.directories = u.directories) {start : Place}
    {names : List String} {slashed : Bool} {target : Target}
    (hf : t.follow start names slashed = .ok target) : u.follow start names slashed = .ok target := by
  unfold follow at hf ⊢
  split at hf
  · exact hf
  · cases hw : t.walk start names.dropLast with
    | error e => rw [hw] at hf; cases hf
    | ok directory =>
      rw [hw] at hf
      rw [walk_ok h hw]
      exact hf

theorem target_ok (t u : FileTree) (hh : t.here = u.here) (hd : t.directories = u.directories)
    {path : String} {target : Target} (h : t.target path = .ok target) :
    u.target path = .ok target := by
  unfold FileTree.target at h ⊢
  rw [← hh]
  by_cases h₁ : longestPath < path.utf8ByteSize
  · rw [if_pos h₁] at h; cases h
  by_cases h₂ : path.isEmpty = true
  · rw [if_neg h₁, if_pos h₂] at h; cases h
  rw [if_neg h₁, if_neg h₂] at h ⊢
  exact follow_ok hd h

theorem readTarget_put {t : FileTree} {target : Target} {p : Place} (text : String)
    (h : t.placeToWrite target = .ok p) : (t.put p text).readTarget target = .ok text := by
  cases target with
  | directory => cases h
  | entry directory name slashed =>
    simp only [placeToWrite] at h
    by_cases h₁ : slashed = true
    · simp [h₁] at h
    by_cases h₂ : longestName < name.utf8ByteSize
    · simp [h₁, h₂] at h
    by_cases h₃ : directory ++ [name] ∈ t.directories
    · simp [h₁, h₂, h₃] at h
    rw [if_neg h₁, if_neg h₂, if_neg h₃] at h
    cases h
    have h₄ : directory ++ [name] ∉ (t.put (directory ++ [name]) text).directories := h₃
    simp [readTarget, h₁, h₂, h₄, textAt_put]

theorem read_write {t u : FileTree} {path text : String} (h : t.write path text = .ok u) :
    u.read path = .ok text := by
  unfold write at h
  split at h
  · cases h
  · rename_i target ht
    split at h
    · cases h
    · rename_i p hp
      cases h
      have hu : (t.put p text).target path = .ok target := target_ok t (t.put p text) rfl rfl ht
      rw [read_eq_of_target hu, readTarget_put text hp]

end FileTree

end TermRewriting
