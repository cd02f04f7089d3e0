import GameBoy.CommandLine.Store
import Mathlib.Data.List.TakeDrop

/-!
What is expected of files: looking at them changes nothing, what has been written is read, and other
files stay as they are. Main statements: `Store.files_faithful` and `Store.files_apart`, which say
that files in memory behave so.
-/

namespace GameBoy.CommandLine

namespace Files

variable {φ : Type}

/-- What the files become when one of them is written. -/
def put (files : Files (StateM φ)) (path : String) (contents : Memory) (s : φ) : φ :=
  ((files.write path contents).run s).2

/-- Looking at files changes nothing, and once a file has been written it is there and holds what
was written. -/
structure Faithful (files : Files (StateM φ)) (path : String) : Prop where
  read (other : String) (s : φ) : ((files.read other).run s).2 = s
  present (other : String) (s : φ) : ((files.present other).run s).2 = s
  written {contents : Memory} {s : φ} : ((files.write path contents).run s).1 = .ok () →
    ((files.present path).run (files.put path contents s)).1 = true ∧
      ((files.read path).run (files.put path contents s)).1 = .ok contents

/-- A file is there in both states or in neither, and if it is there it reads the same. -/
structure SameFile (files : Files (StateM φ)) (path : String) (s t : φ) : Prop where
  present : ((files.present path).run t).1 = ((files.present path).run s).1
  read : ((files.present path).run s).1 = true →
    ((files.read path).run t).1 = ((files.read path).run s).1

theorem SameFile.refl (files : Files (StateM φ)) (path : String) (s : φ) :
    files.SameFile path s s := ⟨rfl, fun _ => rfl⟩

theorem SameFile.trans {files : Files (StateM φ)} {path : String} {s t u : φ}
    (first : files.SameFile path s t) (second : files.SameFile path t u) :
    files.SameFile path s u where
  present := second.present.trans first.present
  read there := (second.read (first.present.trans there)).trans (first.read there)

/-- Writing one file leaves another as it is. -/
def Apart (files : Files (StateM φ)) (path other : String) : Prop :=
  ∀ (contents : Memory) (s : φ), files.SameFile other s (files.put path contents s)

/-- What the files become when one of them is written time and again. -/
def putEach (files : Files (StateM φ)) (path : String) (copies : List Memory) (s : φ) : φ :=
  copies.foldl (fun s contents => files.put path contents s) s

theorem putEach_concat (files : Files (StateM φ)) (path : String) (copies : List Memory)
    (last : Memory) (s : φ) :
    files.putEach path (copies ++ [last]) s = files.put path last (files.putEach path copies s) :=
  List.foldl_append

theorem Apart.sameFile_putEach {files : Files (StateM φ)} {path other : String}
    (apart : files.Apart path other) (copies : List Memory) (s : φ) :
    files.SameFile other s (files.putEach path copies s) := by
  induction copies generalizing s with
  | nil => exact .refl _ _ _
  | cons contents rest ih => exact (apart contents s).trans (ih _)

end Files

/-! Places. -/

namespace Location

/-- Where a name leads from a directory. -/
def enter (location : Location) (name : String) : Location :=
  if name = "" ∨ name = "." then location
  else if name = ".." then location.parent
  else location.child name

theorem isBelow_iff {location other : Location} :
    location.isBelow other = true ↔ location.base = other.base ∧
      other.names.length < location.names.length ∧ other.names <+: location.names := by
  simp [isBelow, and_assoc]

theorem isBelow_trans {location middle other : Location} (first : location.isBelow middle = true)
    (second : middle.isBelow other = true) : location.isBelow other = true := by
  obtain ⟨base, longer, starts⟩ := isBelow_iff.mp first
  obtain ⟨sameBase, longest, begins⟩ := isBelow_iff.mp second
  exact isBelow_iff.mpr
    ⟨base.trans sameBase, Nat.lt_trans longest longer, begins.trans starts⟩

/-- What a directory calls by a name lies below that directory, and below what that lies below. -/
theorem isBelow_child {directory other : Location} {name : String}
    (below : (directory.child name).isBelow other = true) :
    directory = other ∨ directory.isBelow other = true := by
  obtain ⟨base, longer, starts⟩ := isBelow_iff.mp below
  rcases List.prefix_concat_iff.mp starts with whole | starts
  · rw [whole] at longer
    exact absurd longer (Nat.lt_irrefl _)
  · rcases Nat.eq_or_lt_of_le starts.length_le with same | shorter
    · have names := starts.eq_of_length same
      obtain ⟨_, _⟩ := directory
      obtain ⟨_, _⟩ := other
      cases base
      cases names
      exact .inl rfl
    · exact .inr (isBelow_iff.mpr ⟨base, shorter, starts⟩)

theorem parent_cases (location : Location) :
    location.parent.names = [] ∨ location.isBelow location.parent = true := by
  by_cases top : location.names = []
  · left
    unfold parent
    split
    · rfl
    · simp_all
  · right
    have up : location.parent = { location with names := location.names.dropLast } := by
      unfold parent
      split
      · exact absurd rfl top
      · rfl
    have longer := List.length_pos_iff.mpr top
    rw [up, isBelow_iff, List.length_dropLast]
    exact ⟨rfl, by omega, List.dropLast_prefix _⟩

theorem isStandardDirectory_of_names {location : Location} (top : location.names = []) :
    location.isStandardDirectory = true := by
  unfold isStandardDirectory
  rw [top]

/-- Only the root lies above a standard directory. -/
theorem isStandardDirectory_of_isBelow {location other : Location}
    (below : location.isBelow other = true) (standard : location.isStandardDirectory = true) :
    other.isStandardDirectory = true := by
  obtain ⟨-, longer, -⟩ := isBelow_iff.mp below
  refine isStandardDirectory_of_names (List.eq_nil_of_length_eq_zero ?_)
  unfold isStandardDirectory at standard
  split at standard
  · next top => simp_all
  · next one => simp_all
  · cases standard

end Location

namespace Store

theorem isDirectory_of_isBelow (s : Store) {location other : Location}
    (below : location.isBelow other = true) (directory : s.isDirectory location = true) :
    s.isDirectory other = true := by
  rw [isDirectory, Bool.or_eq_true] at directory ⊢
  rcases directory with standard | above
  · exact .inl (Location.isStandardDirectory_of_isBelow below standard)
  · obtain ⟨entry, member, inside⟩ := List.any_eq_true.mp above
    exact .inr (List.any_eq_true.mpr ⟨entry, member, Location.isBelow_trans inside below⟩)

theorem isDirectory_parent (s : Store) {location : Location}
    (directory : s.isDirectory location = true) : s.isDirectory location.parent = true := by
  rcases location.parent_cases with top | below
  · rw [isDirectory, Location.isStandardDirectory_of_names top]
    rfl
  · exact s.isDirectory_of_isBelow below directory

theorem map_fst_replace (entries : List (Location × Memory)) (location : Location)
    (contents : Memory) :
    (replace entries location contents).map Prod.fst = entries.map Prod.fst := by
  rw [replace, List.map_map]
  refine List.map_congr_left fun entry _ => ?_
  dsimp only [Function.comp]
  split <;> rfl

/-- A file that is stored in a directory makes no new directories. -/
theorem isDirectory_put (s : Store) {directory : Location}
    (there : s.isDirectory directory = true) (name : String) (contents : Memory)
    (location : Location) :
    (s.put (directory.child name) contents).isDirectory location = s.isDirectory location := by
  have listed (s : Store) : s.isDirectory location = (location.isStandardDirectory ||
      (s.entries.map Prod.fst).any fun l => l.isBelow location) := by
    rw [List.any_map]
    rfl
  unfold put
  split
  · rfl
  · split
    · rw [listed, listed, map_fst_replace]
    · rw [listed, listed, List.map_append, List.any_append, ← Bool.or_assoc, ← listed]
      cases below : (directory.child name).isBelow location with
      | false => simp [below]
      | true =>
        have already : s.isDirectory location = true := by
          rcases Location.isBelow_child below with rfl | above
          · exact there
          · exact s.isDirectory_of_isBelow above there
        rw [already]
        rfl

/-! Paths. -/

/-- A name leads on from a directory only. -/
theorem follow_cons (s : Store) {current location : Location} {name : String}
    {rest : List String} : s.follow current (name :: rest) = .ok location ↔
      s.isDirectory current = true ∧ name.utf8ByteSize ≤ maxNameSize ∧
        s.follow (current.enter name) rest = .ok location := by
  rw [follow, Location.enter]
  cases s.isDirectory current with
  | false => exact ⟨nofun, nofun⟩
  | true =>
    rw [Bool.not_true, if_neg Bool.false_ne_true]
    by_cases stays : name = "" ∨ name = "."
    · have short : name.utf8ByteSize ≤ maxNameSize := by
        rcases stays with rfl | rfl <;> decide
      rw [if_pos stays, if_pos stays]
      exact ⟨fun followed => ⟨rfl, short, followed⟩, fun followed => followed.2.2⟩
    · rw [if_neg stays, if_neg stays]
      by_cases up : name = ".."
      · have short : name.utf8ByteSize ≤ maxNameSize := by
          rw [up]
          decide
        rw [if_pos up, if_pos up]
        exact ⟨fun followed => ⟨rfl, short, followed⟩, fun followed => followed.2.2⟩
      · rw [if_neg up, if_neg up]
        by_cases long : maxNameSize < name.utf8ByteSize
        · rw [if_pos long]
          exact ⟨nofun, fun followed => absurd followed.2.1 (Nat.not_le.mpr long)⟩
        · rw [if_neg long]
          exact ⟨fun followed => ⟨rfl, Nat.not_lt.mp long, followed⟩, fun followed => followed.2.2⟩

theorem follow_append (s : Store) {current location : Location} {names more : List String} :
    s.follow current (names ++ more) = .ok location ↔
      ∃ middle, s.follow current names = .ok middle ∧ s.follow middle more = .ok location := by
  induction names generalizing current with
  | nil => simp [follow]
  | cons name rest ih =>
    rw [List.cons_append, follow_cons, ih]
    constructor
    · rintro ⟨there, short, middle, before, after⟩
      exact ⟨middle, s.follow_cons.mpr ⟨there, short, before⟩, after⟩
    · rintro ⟨middle, before, after⟩
      obtain ⟨there, short, before⟩ := s.follow_cons.mp before
      exact ⟨there, short, middle, before, after⟩

/-- Names lead to one place, if they lead anywhere. -/
theorem follow_eq {s : Store} {current location : Location} {names : List String}
    (followed : s.follow current names = .ok location) :
    location = names.foldl Location.enter current := by
  induction names generalizing current with
  | nil => exact (Except.ok.inj followed).symm
  | cons name rest ih => exact ih (s.follow_cons.mp followed).2.2

/-- Whether names can be followed is a matter of directories. -/
theorem follow_congr {s t : Store} (same : ∀ l, t.isDirectory l = s.isDirectory l)
    {current location : Location} {names : List String}
    (followed : s.follow current names = .ok location) : t.follow current names = .ok location := by
  induction names generalizing current with
  | nil => exact followed
  | cons name rest ih =>
    obtain ⟨there, short, rest⟩ := s.follow_cons.mp followed
    exact t.follow_cons.mpr ⟨(same current).trans there, short, ih rest⟩

/-- The place that a path stands for. -/
def location (path : String) : Location :=
  (path.splitToList (· = '/')).foldl Location.enter (start path)

theorem resolve_eq_ok {s : Store} {path : String} {location : Location}
    (resolved : s.resolve path = .ok location) :
    namesOf path = .ok (path.splitToList (· = '/')) ∧
      s.follow (start path) (path.splitToList (· = '/')) = .ok location := by
  unfold resolve at resolved
  cases named : namesOf path with
  | error e =>
    rw [named] at resolved
    cases resolved
  | ok names =>
    rw [named] at resolved
    unfold namesOf at named
    split at named
    · cases named
    · split at named
      · cases named
      · cases named
        exact ⟨rfl, resolved⟩

theorem resolve_location {s : Store} {path : String} {there : Location}
    (resolved : s.resolve path = .ok there) : there = location path :=
  follow_eq (resolve_eq_ok resolved).2

theorem resolve_congr {s t : Store} (same : ∀ l, t.isDirectory l = s.isDirectory l)
    {path : String} {location : Location} (resolved : s.resolve path = .ok location) :
    t.resolve path = .ok location := by
  obtain ⟨named, followed⟩ := resolve_eq_ok resolved
  rw [resolve, named]
  exact follow_congr same followed

/-- From a directory, a name leads to a directory or to what the directory calls by that name. -/
theorem enter_cases (s : Store) {directory : Location} (there : s.isDirectory directory = true)
    (name : String) : s.isDirectory (directory.enter name) = true ∨
      directory.enter name = directory.child name := by
  unfold Location.enter
  split
  · exact .inl there
  · split
    · exact .inl (s.isDirectory_parent there)
    · exact .inr rfl

theorem resolveNew_congr {s t : Store} (same : ∀ l, t.isDirectory l = s.isDirectory l)
    {path : String} {location : Location} (resolved : s.resolveNew path = .ok location) :
    t.resolveNew path = .ok location := by
  unfold resolveNew at resolved ⊢
  cases named : namesOf path with
  | error e =>
    rw [named] at resolved
    cases resolved
  | ok names =>
    rw [named] at resolved
    dsimp only at resolved ⊢
    generalize names.reverse.span (· = "") = parts at resolved ⊢
    obtain ⟨slashes, _ | ⟨last, before⟩⟩ := parts
    · cases resolved
    · dsimp only at resolved ⊢
      cases followed : s.follow (start path) (before.reverse ++ ["."]) with
      | error e =>
        rw [followed] at resolved
        cases resolved
      | ok directory =>
        rw [followed] at resolved
        rw [follow_congr same followed]
        dsimp only at resolved ⊢
        split at resolved
        · next bare =>
          rw [if_pos bare]
          exact follow_congr same resolved
        · cases resolved

/-- A file is created where its path leads, in a directory that is there. -/
theorem resolveNew_eq_ok {s : Store} {path : String} {location : Location}
    (resolved : s.resolveNew path = .ok location) (file : s.isDirectory location = false) :
    s.resolve path = .ok location ∧
      ∃ directory name, s.isDirectory directory = true ∧ location = directory.child name := by
  unfold resolveNew at resolved
  cases named : namesOf path with
  | error e =>
    rw [named] at resolved
    cases resolved
  | ok names =>
    have whole : names.reverse.takeWhile (· = "") ++ names.reverse.dropWhile (· = "") =
        names.reverse := List.takeWhile_append_dropWhile
    simp only [named, List.span_eq_takeWhile_dropWhile] at resolved
    generalize names.reverse.takeWhile (· = "") = slashes at resolved whole
    generalize names.reverse.dropWhile (· = "") = upward at resolved whole
    cases upward with
    | nil => cases resolved
    | cons last before =>
      dsimp only at resolved
      split at resolved
      · cases resolved
      · next directory followed =>
        split at resolved
        · next bare =>
          -- The name behind the last slash is entered from a directory that is known to be there.
          have split : names = before.reverse ++ [last] := by
            rw [bare, List.nil_append] at whole
            rw [← List.reverse_reverse names, ← whole, List.reverse_cons]
          obtain ⟨middle, followed, stays⟩ := s.follow_append.mp followed
          have same : directory = middle := follow_eq stays
          rw [← same] at followed
          have entered : location = directory.enter last := follow_eq resolved
          have there := (s.follow_cons.mp resolved).1
          refine ⟨?_, directory, last, there, ?_⟩
          · rw [resolve, named, split]
            exact s.follow_append.mpr ⟨directory, followed, resolved⟩
          · rcases s.enter_cases there last with inside | outside
            · rw [← entered, file] at inside
              cases inside
            · exact entered.trans outside
        · cases resolved

/-- A file is written where its path leads, and no directory comes or goes. -/
theorem write_eq_ok {s t : Store} {path : String} {contents : Memory}
    (written : s.write path contents = .ok t) :
    s.resolve path = .ok (location path) ∧ t = s.put (location path) contents ∧
      ∀ l, t.isDirectory l = s.isDirectory l := by
  unfold write at written
  split at written
  · cases written
  · next there resolved =>
    split at written
    · cases written
    · next file =>
      obtain ⟨leads, directory, name, inside, child⟩ :=
        resolveNew_eq_ok resolved (Bool.not_eq_true _ ▸ file)
      have same := resolve_location leads
      cases written
      rw [← same]
      refine ⟨leads, rfl, fun l => ?_⟩
      rw [child]
      exact s.isDirectory_put inside name contents l

/-- What a path leads to. -/
theorem contains_iff (s : Store) (path : String) : s.contains path = true ↔
    s.resolve path = .ok (location path) ∧
      ((s.get? (location path)).isSome ∨ s.isDirectory (location path)) := by
  unfold contains
  cases resolved : s.resolve path with
  | error e => exact ⟨nofun, nofun⟩
  | ok there =>
    rw [resolve_location resolved, Bool.or_eq_true]
    exact ⟨fun found => ⟨rfl, found⟩, fun found => found.2⟩

theorem read_of_resolve {s : Store} {path : String}
    (resolved : s.resolve path = .ok (location path)) :
    s.read path = match s.get? (location path) with
      | some contents => .ok contents
      | none => .error (if s.isDirectory (location path) then .isDirectory else .notFound) := by
  cases found : s.get? (location path) <;> simp [read, resolved, found]

theorem run_write (s : Store) (path : String) (contents : Memory) :
    (Store.files.write path contents).run s =
      match s.write path contents with
      | .error e => (.error e, s)
      | .ok t => (.ok (), t) := by
  unfold files
  dsimp only [bind, StateT.bind, get, getThe, MonadStateOf.get, StateT.get, pure, StateT.run]
  cases s.write path contents <;> rfl

/-- Whether a file can be written is a matter of directories, not of what is written. -/
theorem write_congr {s t u : Store} (same : ∀ l, t.isDirectory l = s.isDirectory l)
    {path : String} {contents : Memory} (written : s.write path contents = .ok u)
    (other : Memory) : ∃ v, t.write path other = .ok v := by
  unfold write at written ⊢
  split at written
  · cases written
  · next location resolved =>
    split at written
    · cases written
    · next file =>
      rw [resolveNew_congr same resolved]
      dsimp only
      rw [if_neg (same location ▸ file)]
      exact ⟨_, rfl⟩

/-- A file that can be written can be written again and again. -/
theorem writable_putEach {s : Store} {path : String}
    (writable : ∀ contents, ((Store.files.write path contents).run s).1 = .ok ())
    (copies : List Memory) (contents : Memory) :
    ((Store.files.write path contents).run (Store.files.putEach path copies s)).1 = .ok () := by
  induction copies generalizing s with
  | nil => exact writable contents
  | cons first rest ih =>
    refine ih fun later => ?_
    have once := writable first
    rw [run_write] at once
    cases written : s.write path first with
    | error e =>
      rw [written] at once
      cases once
    | ok t =>
      obtain ⟨-, -, same⟩ := write_eq_ok written
      obtain ⟨u, again⟩ := write_congr same written later
      have next : Store.files.put path first s = t := by rw [Files.put, run_write, written]
      show ((Store.files.write path later).run (Store.files.put path first s)).1 = _
      rw [next, run_write, again]

/-- What has been written to a path is read there, unless the path leads to the null device. -/
theorem files_faithful {path : String} (real : location path ≠ .nullDevice) :
    Store.files.Faithful path where
  read _ _ := rfl
  present _ _ := rfl
  written {contents s} done := by
    rw [Files.put]
    rw [run_write] at done ⊢
    cases written : s.write path contents with
    | error e =>
      rw [written] at done
      cases done
    | ok t =>
      obtain ⟨resolved, rfl, same⟩ := write_eq_ok written
      have found := s.get?_put_same real contents
      have leads := resolve_congr same resolved
      constructor
      · exact (contains_iff _ path).mpr ⟨leads, .inl (by rw [found]; rfl)⟩
      · show read _ path = _
        rw [read_of_resolve leads, found]

/-- A file that is written leaves those at other places as they are. -/
theorem files_apart {path other : String} (different : location path ≠ location other) :
    Store.files.Apart path other := by
  intro contents s
  rw [Files.put, run_write]
  cases written : s.write path contents with
  | error e => exact .refl _ _ _
  | ok t =>
    obtain ⟨-, rfl, same⟩ := write_eq_ok written
    have kept := s.get?_put_ne different contents
    have leads : (s.put (location path) contents).resolve other = .ok (location other) ↔
        s.resolve other = .ok (location other) :=
      ⟨resolve_congr fun l => (same l).symm, resolve_congr same⟩
    constructor
    · refine Bool.eq_iff_iff.mpr ?_
      show contains _ other = true ↔ contains _ other = true
      rw [contains_iff, contains_iff, leads, kept, same]
    · intro found
      obtain ⟨resolved, -⟩ := (contains_iff s other).mp found
      show read _ other = read _ other
      rw [read_of_resolve (leads.mpr resolved), read_of_resolve resolved, kept, same]

end Store

end GameBoy.CommandLine
