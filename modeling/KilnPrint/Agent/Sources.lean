/-
Where a document comes from.

* `FileSystem`, `realpath` — files, directories and links, and the place that a path stands for;
* `readPath`, `fetchUrl`, `resolve` — a document by path, by URL, and from any source;
* `Served` — a file that is below an allowed folder and not too large;
* `path_confined` — **what is read by path is a file below an allowed folder, and all of these are
  read**;
* `Alike` — file systems that differ in files outside the allowed folders only;
* `Near`, `realpath_near` — how far apart a path can then lead;
* `files_undisclosed` — **such files make no difference**.

Paths are those of a POSIX system.  A path is resolved on one state of the file system; what cannot
be searched is not there.  The answer of a web server is a parameter.
-/
import KilnPrint.Agent.Config
import KilnPrint.Agent.Wire
import KilnPrint.Lib.Pieces
import Mathlib.Data.List.Infix

namespace KilnPrint

namespace Sources

/-! ### Places -/

abbrev Name := List Char

inductive Entry
  | dir
  /-- A file, with its contents if they can be read. -/
  | file (contents : Option Bytes)
  | link (target : List Char)
  | special
  deriving DecidableEq

/-- The names from the root to a place. -/
abbrev Place := List Name

/-- What is at each place: below directories only. -/
structure FileSystem where
  entry : Place → Option Entry
  root : entry [] = some .dir
  parent : ∀ place name, (entry (place ++ [name])).isSome → entry place = some .dir

namespace FileSystem

/-- The root, and what a list says of the other places. -/
def entryOf (entries : List (Place × Entry)) (place : Place) : Option Entry :=
  if place = [] then some .dir else entries.lookup place

/-- The file system of a list whose places are in directories. -/
def ofList (entries : List (Place × Entry))
    (h : ∀ e ∈ entries, entryOf entries e.1.dropLast = some .dir) : FileSystem where
  entry := entryOf entries
  root := if_pos rfl
  parent place name hsome := by
    have hne : place ++ [name] ≠ [] := List.append_ne_nil_of_right_ne_nil _ (List.cons_ne_nil _ _)
    rw [entryOf, if_neg hne, List.lookup_isSome_iff] at hsome
    obtain ⟨e, he, heq⟩ := hsome
    have hdir := h e he
    rwa [← eq_of_beq heq, List.dropLast_concat] at hdir

end FileSystem

def isAbsolute (path : List Char) : Bool := path.head? == some '/'

/-- Where a path starts that is met at a place. -/
def startOf (path : List Char) (here : Place) : Place := if isAbsolute path then [] else here

/-- Goes along names; a link is followed by `follow`. -/
def descend (fs : FileSystem) (follow : Place → List Name → Option Place) :
    Place → List Name → Option Place
  | here, [] => some here
  | here, name :: rest =>
    if name = [] ∨ name = ['.'] then descend fs follow here rest
    else if name = ['.', '.'] then descend fs follow here.dropLast rest
    else
      match fs.entry (here ++ [name]) with
      | none => none
      | some .dir => descend fs follow (here ++ [name]) rest
      | some (.file _) | some .special => if rest = [] then some (here ++ [name]) else none
      | some (.link target) => follow (startOf target here) (target.splitOn '/' ++ rest)

/-- Goes along names through so many links. -/
def walk (fs : FileSystem) : ℕ → Place → List Name → Option Place
  | 0 => descend fs fun _ _ => none
  | links + 1 => descend fs (walk fs links)

/-- How many links are followed. -/
def maxLinks : ℕ := 40

/-- `canonicalize`: the place a path stands for, without links. -/
def realpath (fs : FileSystem) (cwd : Place) (path : List Char) : Option Place :=
  if path = [] then none else walk fs maxLinks (startOf path cwd) (path.splitOn '/')

/-! ### Documents -/

def denied (message : String) : PrintError := .new .accessDenied message

def exceeded (limit : ℕ) : PrintError :=
  .new .payloadTooLarge s!"document exceeds the {limit}-byte limit"

/-- The one answer for what is missing, unreadable or outside. -/
def refused : PrintError := denied "the path is not readable or is outside the allowed folders"

/-- Whether a place is in an allowed folder. -/
def inside (fs : FileSystem) (cwd : Place) (roots : List (List Char)) (place : Place) : Bool :=
  (roots.filterMap (realpath fs cwd)).any (·.isPrefixOf place)

/-- The contents of a file, as far as they are read. -/
def contentsAt (fs : FileSystem) (place : Place) : Option Bytes :=
  match fs.entry place with
  | some (.file contents) => contents
  | _ => none

/-- The document at a place, if it may be read. -/
def readAt (fs : FileSystem) (cwd : Place) (roots : List (List Char)) (maxBytes : ℕ)
    (place : Place) : Except PrintError Bytes :=
  if inside fs cwd roots place then
    match contentsAt fs place with
    | none => .error refused
    | some contents =>
      if (contents.take (maxBytes + 1)).length > maxBytes then .error (exceeded maxBytes)
      else .ok (contents.take (maxBytes + 1))
  else .error refused

def readPath (fs : FileSystem) (cwd : Place) (roots : List (List Char)) (path : List Char)
    (maxBytes : ℕ) : Except PrintError Bytes :=
  if roots = [] then
    .error (denied
      "printing files by path is disabled on this agent (see sources.allowed_paths)")
  else if ¬ isAbsolute path then .error (.invalidPayload "path must be absolute")
  else (realpath fs cwd path).elim (.error refused) (readAt fs cwd roots maxBytes)

/-- What comes of a request to a web server; `read` is the body, within a limit. -/
inductive Fetched
  | failed (message : String)
  | response (status : ℕ) (read : ℕ → Except String Bytes)

def fetchUrl (prefixes : List (List Char)) (url : List Char) (web : List Char → Fetched)
    (maxBytes : ℕ) : Except PrintError Bytes :=
  if prefixes = [] then
    .error (denied
      "fetching documents by URL is disabled on this agent (see sources.allowed_url_prefixes)")
  else if ¬ UrlSource.urlAllowed prefixes url then
    .error (denied "the URL is not under an allowed prefix")
  else
    match web url with
    | .failed message => .error (.new .connectionError s!"could not fetch the document: {message}")
    | .response status read =>
      if status ≠ 200 then
        .error ((PrintError.new .connectionError
          s!"fetching the document returned HTTP {status}").recoverably (status ≥ 500))
      else
        match read (maxBytes + 1) with
        | .error message =>
          .error (.new .connectionError s!"reading the document failed: {message}")
        | .ok data => if data.length > maxBytes then .error (exceeded maxBytes) else .ok data

def resolve (fs : FileSystem) (cwd : Place) (web : List Char → Fetched) (serde : Serde)
    (config : AgentConfig) (spec : SourceSpec) (maxBytes : ℕ) : Except PrintError Bytes :=
  match spec with
  | .inline data encoding => encoding.decode serde data maxBytes
  | .path path => readPath fs cwd (config.allowedPaths.map String.toList) path.toList maxBytes
  | .url url => fetchUrl (config.allowedUrlPrefixes.map String.toList) url.toList web maxBytes

/-! ### What is read by path -/

variable {fs fs' : FileSystem} {cwd : Place} {roots : List (List Char)} {path : List Char}
  {maxBytes : ℕ} {data : Bytes}

/-- A name of an entry. -/
def Proper (name : Name) : Prop := name ≠ [] ∧ name ≠ ['.'] ∧ name ≠ ['.', '.'] ∧ '/' ∉ name

theorem proper_splitOn {text : List Char} {name : Name} (h : name ∈ text.splitOn '/') :
    '/' ∉ name :=
  fun hslash => (Pieces.mem_of_mem_splitOn h '/' hslash).2 rfl

theorem plain_dropLast {here : Place} (h : ∀ name ∈ here, Proper name) :
    ∀ name ∈ here.dropLast, Proper name :=
  fun name hname => h name (List.dropLast_subset here hname)

theorem descend_proper {follow : Place → List Name → Option Place}
    (hfollow : ∀ {here rest place}, (∀ name ∈ here, Proper name) → (∀ name ∈ rest, '/' ∉ name) →
      follow here rest = some place → ∀ name ∈ place, Proper name)
    {rest : List Name} : ∀ {here place : Place}, (∀ name ∈ here, Proper name) →
      (∀ name ∈ rest, '/' ∉ name) → descend fs follow here rest = some place →
        ∀ name ∈ place, Proper name := by
  induction rest with
  | nil =>
    intro here place hhere _ h
    exact Option.some.inj h ▸ hhere
  | cons name rest ih =>
    intro here place hhere hrest h
    have hrest' : ∀ n ∈ rest, '/' ∉ n := fun n hn => hrest n (List.mem_cons_of_mem _ hn)
    unfold descend at h
    split at h
    · exact ih hhere hrest' h
    · rename_i hnotDot
      split at h
      · exact ih (plain_dropLast hhere) hrest' h
      · rename_i hnotDotDot
        have hname : Proper name :=
          ⟨fun h => hnotDot (.inl h), fun h => hnotDot (.inr h), hnotDotDot,
            hrest name List.mem_cons_self⟩
        have hnext : ∀ n ∈ here ++ [name], Proper n := by
          intro n hn
          rcases List.mem_append.mp hn with hn | hn
          · exact hhere n hn
          · exact List.mem_singleton.mp hn ▸ hname
        split at h
        · cases h
        · exact ih hnext hrest' h
        · split at h
          · exact Option.some.inj h ▸ hnext
          · cases h
        · split at h
          · exact Option.some.inj h ▸ hnext
          · cases h
        · rename_i target _
          refine hfollow ?_ ?_ h
          · unfold startOf
            split
            · exact fun n hn => (by cases hn)
            · exact hhere
          · intro n hn
            rcases List.mem_append.mp hn with hn | hn
            · exact proper_splitOn hn
            · exact hrest' n hn

theorem walk_proper : ∀ (links : ℕ) {rest : List Name} {here place : Place},
    (∀ name ∈ here, Proper name) → (∀ name ∈ rest, '/' ∉ name) →
      walk fs links here rest = some place → ∀ name ∈ place, Proper name
  | 0 => descend_proper fun _ _ h => by cases h
  | links + 1 => descend_proper fun hhere hrest h => walk_proper links hhere hrest h

theorem realpath_proper {place : Place} (habsolute : isAbsolute path = true)
    (h : realpath fs cwd path = some place) : ∀ name ∈ place, Proper name := by
  unfold realpath at h
  split at h
  · cases h
  · rw [startOf, if_pos habsolute] at h
    exact walk_proper maxLinks (fun _ hn => by cases hn) (fun _ hn => proper_splitOn hn) h

/-- Above what exists there are directories. -/
theorem entry_of_below (fs : FileSystem) (place : Place) : ∀ rest : List Name, rest ≠ [] →
    (fs.entry (place ++ rest)).isSome = true → fs.entry place = some .dir := by
  intro rest
  induction rest using List.reverseRecOn with
  | nil => exact fun h _ => absurd rfl h
  | append_singleton rest name ih =>
    intro _ h
    rw [← List.append_assoc] at h
    have hdir := fs.parent (place ++ rest) name h
    by_cases hrest : rest = []
    · rwa [hrest, List.append_nil] at hdir
    · exact ih hrest (by rw [hdir]; rfl)

/-- Going along the names of a file leads to it. -/
theorem descend_plain {follow : Place → List Name → Option Place} {contents : Option Bytes}
    {rest : List Name} : ∀ {here : Place}, (∀ name ∈ rest, Proper name) → rest ≠ [] →
      fs.entry (here ++ rest) = some (.file contents) →
        descend fs follow here rest = some (here ++ rest) := by
  induction rest with
  | nil => exact fun _ h _ => absurd rfl h
  | cons name rest ih =>
    intro here hproper _ hentry
    obtain ⟨hempty, hdot, hdotdot, -⟩ := hproper name List.mem_cons_self
    unfold descend
    rw [if_neg (fun h => h.elim hempty hdot), if_neg hdotdot]
    have hsplit : here ++ name :: rest = (here ++ [name]) ++ rest := by
      rw [List.append_assoc]
      rfl
    by_cases hrest : rest = []
    · rw [hrest] at hentry ⊢
      rw [hentry]
      exact if_pos rfl
    · rw [hsplit] at hentry ⊢
      have hdir := entry_of_below fs (here ++ [name]) rest hrest (by rw [hentry]; rfl)
      rw [hdir]
      exact ih (fun n hn => hproper n (List.mem_cons_of_mem _ hn)) hrest hentry

/-- The path of a place. -/
def textOf (place : Place) : List Char := place.flatMap fun name => '/' :: name

theorem splitOn_textOf : ∀ {place : Place}, (∀ name ∈ place, Proper name) →
    (textOf place).splitOn '/' = [] :: place := by
  intro place
  induction place with
  | nil => exact fun _ => rfl
  | cons name place ih =>
    intro hproper
    have hrest := ih fun n hn => hproper n (List.mem_cons_of_mem _ hn)
    have htext : textOf (name :: place) = '/' :: (name ++ textOf place) := rfl
    rw [htext, Pieces.splitOn_cons, if_pos rfl,
      Pieces.splitOn_append_of_not_mem (hproper name List.mem_cons_self).2.2.2, hrest,
      List.modifyHead_cons, List.append_nil]

theorem realpath_textOf {place : Place} {contents : Option Bytes}
    (hproper : ∀ name ∈ place, Proper name) (hentry : fs.entry place = some (.file contents)) :
    realpath fs cwd (textOf place) = some place := by
  have hplace : place ≠ [] := by
    rintro rfl
    rw [fs.root] at hentry
    cases hentry
  obtain ⟨name, rest, rfl⟩ := List.exists_cons_of_ne_nil hplace
  have htext : textOf (name :: rest) = '/' :: (name ++ textOf rest) := rfl
  have hstart : startOf (textOf (name :: rest)) cwd = [] := if_pos rfl
  unfold realpath
  rw [if_neg (by rw [htext]; exact List.cons_ne_nil _ _), hstart, splitOn_textOf hproper]
  have hdescend : descend fs (walk fs 39) [] ([] :: name :: rest) =
      descend fs (walk fs 39) [] (name :: rest) := if_pos (.inl rfl)
  exact hdescend.trans (descend_plain hproper hplace hentry)

/-- A file below an allowed folder, of an allowed size. -/
structure Served (fs : FileSystem) (cwd : Place) (roots : List (List Char)) (maxBytes : ℕ)
    (place : Place) (data : Bytes) : Prop where
  proper : ∀ name ∈ place, Proper name
  allowed : ∃ root ∈ roots, ∃ folder, realpath fs cwd root = some folder ∧ folder <+: place
  file : fs.entry place = some (.file (some data))
  size : data.length ≤ maxBytes

theorem inside_iff {place : Place} : inside fs cwd roots place = true ↔
    ∃ root ∈ roots, ∃ folder, realpath fs cwd root = some folder ∧ folder <+: place := by
  unfold inside
  rw [List.any_eq_true]
  refine ⟨?_, ?_⟩
  · rintro ⟨folder, hfolder, hplace⟩
    obtain ⟨root, hroot, hreal⟩ := List.mem_filterMap.mp hfolder
    exact ⟨root, hroot, folder, hreal, List.isPrefixOf_iff_prefix.mp hplace⟩
  · rintro ⟨root, hroot, folder, hreal, hplace⟩
    exact ⟨folder, List.mem_filterMap.mpr ⟨root, hroot, hreal⟩,
      List.isPrefixOf_iff_prefix.mpr hplace⟩

theorem contentsAt_eq_some {place : Place} {contents : Bytes} :
    contentsAt fs place = some contents ↔ fs.entry place = some (.file (some contents)) := by
  unfold contentsAt
  refine ⟨fun h => ?_, fun h => ?_⟩
  · split at h
    · rename_i found hfound
      rw [hfound, h]
    · cases h
  · rw [h]

theorem readAt_eq_ok {place : Place} : readAt fs cwd roots maxBytes place = .ok data ↔
    inside fs cwd roots place = true ∧ contentsAt fs place = some data ∧ data.length ≤ maxBytes := by
  unfold readAt
  refine ⟨fun h => ?_, fun ⟨hinside, hcontents, hsize⟩ => ?_⟩
  · split at h
    · rename_i hinside
      split at h
      · cases h
      · rename_i contents hcontents
        split at h
        · cases h
        · rename_i hsize
          have hall : contents.take (maxBytes + 1) = contents := by
            rw [List.length_take] at hsize
            exact List.take_of_length_le (by omega)
          have hdata : contents = data := hall.symm.trans (Except.ok.inj h)
          rw [hall] at hsize
          exact ⟨hinside, hdata ▸ hcontents, hdata ▸ Nat.le_of_not_lt hsize⟩
    · cases h
  · have hall : data.take (maxBytes + 1) = data := List.take_of_length_le (Nat.le_succ_of_le hsize)
    rw [if_pos hinside, hcontents]
    show (if (data.take (maxBytes + 1)).length > maxBytes then _ else _) = _
    rw [hall, if_neg (Nat.not_lt.mpr hsize)]

theorem served_of_read (h : readPath fs cwd roots path maxBytes = .ok data) :
    ∃ place, realpath fs cwd path = some place ∧ Served fs cwd roots maxBytes place data := by
  unfold readPath at h
  split at h
  · cases h
  · split at h
    · cases h
    · rename_i habsolute
      cases hreal : realpath fs cwd path with
      | none =>
        rw [hreal] at h
        cases h
      | some place =>
        rw [hreal] at h
        obtain ⟨hinside, hcontents, hsize⟩ := readAt_eq_ok.mp h
        exact ⟨place, rfl, realpath_proper (not_not.mp habsolute) hreal, inside_iff.mp hinside,
          contentsAt_eq_some.mp hcontents, hsize⟩

theorem read_of_served {place : Place} (h : Served fs cwd roots maxBytes place data) :
    readPath fs cwd roots (textOf place) maxBytes = .ok data := by
  obtain ⟨root, hroot, -⟩ := h.allowed
  have hplace : place ≠ [] := by
    rintro rfl
    have hfile := h.file
    rw [fs.root] at hfile
    cases hfile
  obtain ⟨name, rest, hcons⟩ := List.exists_cons_of_ne_nil hplace
  have habsolute : isAbsolute (textOf place) = true := by
    rw [hcons]
    rfl
  unfold readPath
  rw [if_neg (List.ne_nil_of_mem hroot), if_neg (not_not.mpr habsolute),
    realpath_textOf h.proper h.file]
  exact readAt_eq_ok.mpr ⟨inside_iff.mpr h.allowed, contentsAt_eq_some.mpr h.file, h.size⟩

/-- **What is read by path is a file below an allowed folder.**  Whatever links there are on the
way, the place that the path stands for lies below an allowed folder, with a file within the limit
that is returned whole; and every such file is returned for its own path. -/
theorem path_confined (fs : FileSystem) (cwd : Place) (roots : List (List Char)) (maxBytes : ℕ)
    (data : Bytes) :
    (∀ path, readPath fs cwd roots path maxBytes = .ok data → ∃ place,
      realpath fs cwd path = some place ∧ Served fs cwd roots maxBytes place data) ∧
    ∀ place, Served fs cwd roots maxBytes place data →
      readPath fs cwd roots (textOf place) maxBytes = .ok data :=
  ⟨fun _ h => served_of_read h, fun _ h => read_of_served h⟩

/-- A folder with a document and a link that leads out of it. -/
def shopEntries : List (Place × Entry) :=
  [(["srv".toList], .dir), (["srv".toList, "print".toList], .dir),
    (["srv".toList, "print".toList, "menu".toList], .file (some [0x4D, 0x65, 0x6E, 0x75])),
    (["srv".toList, "print".toList, "out".toList], .link "../../etc/secret".toList),
    (["etc".toList], .dir)]

def secretPlace : Place := ["etc".toList, "secret".toList]

def shop : FileSystem := .ofList shopEntries (by decide +kernel)

/-- The same files, and a secret outside the folder. -/
def shopWithSecret : FileSystem :=
  .ofList ((secretPlace, .file (some [0x68, 0x75, 0x73, 0x68])) :: shopEntries) (by decide +kernel)

/-- The document is read, the secret behind the link is not. -/
example : readPath shopWithSecret [] ["/srv/print".toList] "/srv/./print//menu".toList 100 =
      .ok [0x4D, 0x65, 0x6E, 0x75] ∧
    realpath shopWithSecret [] "/srv/print/out".toList = some secretPlace ∧
    readPath shopWithSecret [] ["/srv/print".toList] "/srv/print/out".toList 100 =
      .error refused := by
  decide +kernel

/-! ### Files outside -/

def IsLeaf : Option Entry → Prop
  | none | some (.file _) | some .special => True
  | some .dir | some (.link _) => False

/-- File systems that differ in files outside the allowed folders, and in nothing else. -/
structure Alike (cwd : Place) (roots : List (List Char)) (fs fs' : FileSystem) : Prop where
  leaves : ∀ place, fs.entry place ≠ fs'.entry place →
    IsLeaf (fs.entry place) ∧ IsLeaf (fs'.entry place)
  outside : ∀ place, fs.entry place ≠ fs'.entry place → ∀ root ∈ roots, ∀ folder,
    realpath fs cwd root = some folder ∨ realpath fs' cwd root = some folder → ¬ folder <+: place

/-- Two paths lead to the same place, or one to a place where the file systems differ and the other
there or nowhere. -/
def Near (fs fs' : FileSystem) (found found' : Option Place) : Prop :=
  found = found' ∨ ∃ place, fs.entry place ≠ fs'.entry place ∧
    (found = none ∨ found = some place) ∧ (found' = none ∨ found' = some place)

theorem descend_leaf {follow : Place → List Name → Option Place} {here : Place} {name : Name}
    {rest : List Name} (hskip : ¬ (name = [] ∨ name = ['.'])) (hup : name ≠ ['.', '.'])
    (h : IsLeaf (fs.entry (here ++ [name]))) :
    descend fs follow here (name :: rest) = none ∨
      descend fs follow here (name :: rest) = some (here ++ [name]) := by
  unfold descend
  rw [if_neg hskip, if_neg hup]
  cases hentry : fs.entry (here ++ [name]) with
  | none => exact .inl rfl
  | some entry =>
    rw [hentry] at h
    cases entry with
    | dir | link target => exact h.elim
    | file contents | special =>
      by_cases hrest : rest = []
      · exact .inr (if_pos hrest)
      · exact .inl (if_neg hrest)

section

variable (hleaves : ∀ place, fs.entry place ≠ fs'.entry place →
  IsLeaf (fs.entry place) ∧ IsLeaf (fs'.entry place))
include hleaves

theorem descend_near {follow follow' : Place → List Name → Option Place}
    (hfollow : ∀ here rest, Near fs fs' (follow here rest) (follow' here rest))
    (rest : List Name) : ∀ here, Near fs fs' (descend fs follow here rest)
      (descend fs' follow' here rest) := by
  induction rest with
  | nil => exact fun here => .inl rfl
  | cons name rest ih =>
    intro here
    by_cases hskip : name = [] ∨ name = ['.']
    · unfold descend
      rw [if_pos hskip, if_pos hskip]
      exact ih here
    · by_cases hup : name = ['.', '.']
      · unfold descend
        rw [if_neg hskip, if_neg hskip, if_pos hup, if_pos hup]
        exact ih here.dropLast
      · by_cases hsame : fs.entry (here ++ [name]) = fs'.entry (here ++ [name])
        · unfold descend
          rw [if_neg hskip, if_neg hskip, if_neg hup, if_neg hup, hsame]
          cases fs'.entry (here ++ [name]) with
          | none => exact .inl rfl
          | some entry =>
            cases entry with
            | dir => exact ih _
            | file contents | special => exact .inl rfl
            | link target => exact hfollow _ _
        · obtain ⟨hleaf, hleaf'⟩ := hleaves _ hsame
          exact .inr ⟨here ++ [name], hsame, descend_leaf hskip hup hleaf,
            descend_leaf hskip hup hleaf'⟩

theorem walk_near : ∀ (links : ℕ) (here : Place) (rest : List Name),
    Near fs fs' (walk fs links here rest) (walk fs' links here rest)
  | 0, here, rest => descend_near hleaves (fun _ _ => .inl rfl) rest here
  | links + 1, here, rest => descend_near hleaves (walk_near links) rest here

theorem realpath_near (cwd : Place) (path : List Char) :
    Near fs fs' (realpath fs cwd path) (realpath fs' cwd path) := by
  unfold realpath
  split
  · exact .inl rfl
  · exact walk_near hleaves maxLinks _ _

end

/-- The allowed folders are the same. -/
theorem Alike.folders (h : Alike cwd roots fs fs') {root : List Char} (hroot : root ∈ roots) :
    realpath fs cwd root = realpath fs' cwd root := by
  rcases realpath_near h.leaves cwd root with hsame | ⟨place, hdiffers, hfound, hfound'⟩
  · exact hsame
  · have hout := h.outside place hdiffers root hroot place
    rcases hfound with hnone | hplace
    · rcases hfound' with hnone' | hplace'
      · exact hnone.trans hnone'.symm
      · exact absurd (List.prefix_refl place) (hout (.inr hplace'))
    · exact absurd (List.prefix_refl place) (hout (.inl hplace))

theorem Alike.inside_eq (h : Alike cwd roots fs fs') (place : Place) :
    inside fs cwd roots place = inside fs' cwd roots place := by
  rw [Bool.eq_iff_iff, inside_iff, inside_iff]
  refine ⟨?_, ?_⟩
  · rintro ⟨root, hroot, folder, hreal, hplace⟩
    exact ⟨root, hroot, folder, (h.folders hroot).symm.trans hreal, hplace⟩
  · rintro ⟨root, hroot, folder, hreal, hplace⟩
    exact ⟨root, hroot, folder, (h.folders hroot).trans hreal, hplace⟩

/-- What differs is not inside. -/
theorem Alike.not_inside (h : Alike cwd roots fs fs') {place : Place}
    (hdiffers : fs.entry place ≠ fs'.entry place) : inside fs cwd roots place = false := by
  rw [Bool.eq_false_iff]
  intro hinside
  obtain ⟨root, hroot, folder, hreal, hplace⟩ := inside_iff.mp hinside
  exact h.outside place hdiffers root hroot folder (.inl hreal) hplace

theorem Alike.refuses (h : Alike cwd roots fs fs') (maxBytes : ℕ) {place : Place}
    (hdiffers : fs.entry place ≠ fs'.entry place) {found : Option Place}
    (hfound : found = none ∨ found = some place) :
    found.elim (.error refused) (readAt fs cwd roots maxBytes) = .error refused ∧
      found.elim (.error refused) (readAt fs' cwd roots maxBytes) = .error refused := by
  rcases hfound with rfl | rfl
  · exact ⟨rfl, rfl⟩
  · have hout := h.not_inside hdiffers
    have hout' := (h.inside_eq place).symm.trans hout
    exact ⟨if_neg (Bool.eq_false_iff.mp hout), if_neg (Bool.eq_false_iff.mp hout')⟩

theorem Alike.answers (h : Alike cwd roots fs fs') (maxBytes : ℕ) {found found' : Option Place}
    (hnear : Near fs fs' found found') :
    found.elim (.error refused) (readAt fs cwd roots maxBytes) =
      found'.elim (.error refused) (readAt fs' cwd roots maxBytes) := by
  rcases hnear with rfl | ⟨place, hdiffers, hfound, hfound'⟩
  · cases found with
    | none =>
      -- not by evaluation, which would compare the two walks of `realpath`
      rw [Option.elim_none, Option.elim_none]
    | some place =>
      by_cases hentry : fs.entry place = fs'.entry place
      · show readAt fs cwd roots maxBytes place = readAt fs' cwd roots maxBytes place
        unfold readAt contentsAt
        rw [h.inside_eq, hentry]
      · obtain ⟨hleft, hright⟩ := h.refuses maxBytes hentry (.inr rfl)
        exact hleft.trans hright.symm
  · obtain ⟨hleft, -⟩ := h.refuses maxBytes hdiffers hfound
    obtain ⟨-, hright⟩ := h.refuses maxBytes hdiffers hfound'
    exact hleft.trans hright.symm

theorem Alike.readPath_eq (h : Alike cwd roots fs fs') (path : List Char) (maxBytes : ℕ) :
    readPath fs cwd roots path maxBytes = readPath fs' cwd roots path maxBytes := by
  have hanswers := h.answers maxBytes (realpath_near h.leaves cwd path)
  unfold readPath
  rw [hanswers]

/-- **Files outside the allowed folders make no difference.**  Whichever of them exist, and whatever
is in them, a client gets the same document or the same error, from any source. -/
theorem files_undisclosed {config : AgentConfig}
    (h : Alike cwd (config.allowedPaths.map String.toList) fs fs') (web : List Char → Fetched)
    (serde : Serde) (spec : SourceSpec) (maxBytes : ℕ) :
    resolve fs cwd web serde config spec maxBytes =
      resolve fs' cwd web serde config spec maxBytes := by
  cases spec with
  | inline data encoding => rfl
  | url url => rfl
  | path path => exact h.readPath_eq path.toList maxBytes

theorem shop_alike : Alike [] ["/srv/print".toList] shop shopWithSecret := by
  have hplace : ∀ place, shop.entry place ≠ shopWithSecret.entry place → place = secretPlace := by
    intro place hdiffers
    by_contra hother
    have hlookup : shopWithSecret.entry place = shop.entry place := by
      show (if place = [] then _ else List.lookup place (_ :: shopEntries)) = _
      rw [List.lookup_cons, beq_eq_false_iff_ne.mpr hother]
      rfl
    exact hdiffers hlookup.symm
  constructor
  · intro place hdiffers
    obtain rfl := hplace place hdiffers
    exact ⟨trivial, trivial⟩
  · intro place hdiffers root hroot folder hfolder
    obtain rfl := hplace place hdiffers
    obtain rfl := List.mem_singleton.mp hroot
    have hshop : realpath shop [] "/srv/print".toList = some ["srv".toList, "print".toList] := by
      decide +kernel
    have hsecret : realpath shopWithSecret [] "/srv/print".toList =
        some ["srv".toList, "print".toList] := by decide +kernel
    rw [hshop, hsecret, or_self] at hfolder
    obtain rfl := Option.some.inj hfolder
    decide

/-- A client cannot tell whether the secret is there. -/
theorem files_undisclosed_secret (web : List Char → Fetched) (serde : Serde) (spec : SourceSpec)
    (maxBytes : ℕ) :
    resolve shop [] web serde { labConfig with allowedPaths := ["/srv/print"] } spec maxBytes =
      resolve shopWithSecret [] web serde { labConfig with allowedPaths := ["/srv/print"] } spec
        maxBytes :=
  files_undisclosed shop_alike web serde spec maxBytes

end Sources

end KilnPrint
