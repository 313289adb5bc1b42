import Mathlib.Tactic

/-!
# A file system with links

Directories, files and symbolic links are nodes with a number; an entry of a directory names a node,
and several entries may name the same one.  A path is resolved from the root or from the working
directory, and a symbolic link on the way is followed.

* `Fs`, `Fs.walk`, `Fs.resolve`   the nodes, and where a path leads: the entries on the way and the
                                  node at the end, or the directory in which only the last name is
                                  missing;
* `write`, `mkdir`, `mkdirs`, `unlink`, `rename`   the calls that change it;
* `Keeps`                         what they leave: everything but some entries, and new nodes;
* `walk_keeps`                    **a path whose entries are left leads to the same node**;
* `walk_replaced`                 a path through an entry that now names a file ends there, or fails.
-/

namespace Posix

abbrev Ino := Nat

/-- a component of a path; `.` is none -/
inductive Comp (ν : Type) where
  | up
  | name (x : ν)
deriving DecidableEq

structure Path (ν : Type) where
  absolute : Bool
  comps : List (Comp ν)
deriving DecidableEq

inductive Node (ν : Type) where
  | file (bytes : List UInt8)
  | dir (entries : ν → Option Ino) (parent : Ino)
  | link (target : Path ν)

/-- the nodes that are in use have numbers below `next`; `limit` bounds how long a resolution may
take -/
structure Fs (ν : Type) where
  nodes : Ino → Option (Node ν)
  root : Ino
  cwd : Ino
  limit : Nat
  next : Ino
  free : ∀ i, next ≤ i → nodes i = none

/-- the end of a path: a node, or a directory without its last name -/
inductive Found (ν : Type) where
  | node (i : Ino)
  | absent (d : Ino) (x : ν)
deriving DecidableEq

/-- a step on the way: on to a node, by an entry or not, with a link's components before the rest -/
inductive Hop (ν : Type) where
  | stop
  | absent (d : Ino) (x : ν)
  | on (e : Option (Ino × ν)) (i : Ino) (more : List (Comp ν))
deriving DecidableEq

section
variable {ν : Type}

namespace Fs
variable (fs : Fs ν)

def hop (d : Ino) (c : Comp ν) : Hop ν :=
  match fs.nodes d with
  | some (.dir entries parent) =>
    match c with
    | .up => .on none parent []
    | .name x =>
      match entries x with
      | none => .absent d x
      | some i =>
        match fs.nodes i with
        | some (.link target) => .on (some (d, x)) (if target.absolute then fs.root else d) target.comps
        | some _ => .on (some (d, x)) i []
        | none => .stop
  | _ => .stop

/-- the entries on the way of a path, and its end -/
def walk : Nat → Ino → List (Comp ν) → Option (List (Ino × ν) × Found ν)
  | 0, _, _ => none
  | _ + 1, d, [] => some ([], .node d)
  | n + 1, d, c :: rest =>
    match fs.hop d c with
    | .stop => none
    | .absent d x => if rest = [] then some ([], .absent d x) else none
    | .on e i more => (walk n i (more ++ rest)).map fun r => (e.toList ++ r.1, r.2)

def start (p : Path ν) : Ino := if p.absolute then fs.root else fs.cwd

def resolve (p : Path ν) : Option (List (Ino × ν) × Found ν) := fs.walk fs.limit (fs.start p) p.comps

/-- the bytes of a file -/
def content (i : Ino) : Option (List UInt8) :=
  match fs.nodes i with
  | some (.file bytes) => some bytes
  | _ => none

def isDirectory (i : Ino) : Bool :=
  match fs.nodes i with
  | some (.dir _ _) => true
  | _ => false

/-- the bytes of the file that a path leads to -/
def read (p : Path ν) : Option (List UInt8) :=
  match fs.resolve p with
  | some (_, .node i) => fs.content i
  | _ => none

def isDir (p : Path ν) : Bool :=
  match fs.resolve p with
  | some (_, .node i) => fs.isDirectory i
  | _ => false

def isPresent (p : Path ν) : Bool :=
  match fs.resolve p with
  | some (_, .node i) => (fs.nodes i).isSome
  | _ => false

/-- the entry that a path names: a link at its end is not followed -/
def entry (p : Path ν) : Option (Ino × ν) :=
  match p.comps.getLast?, fs.walk (fs.limit - 1) (fs.start p) p.comps.dropLast with
  | some (.name x), some (_, .node d) => some (d, x)
  | _, _ => none

/-! ## changes -/

/-- a node with its number -/
def put (i : Ino) (node : Node ν) : Fs ν where
  nodes := Function.update fs.nodes i (some node)
  root := fs.root
  cwd := fs.cwd
  limit := fs.limit
  next := max fs.next (i + 1)
  free := by
    intro j hj
    have hlt : i + 1 ≤ j := (le_max_right _ _).trans hj
    rw [Function.update_of_ne (Nat.ne_of_gt hlt)]
    exact fs.free j ((le_max_left _ _).trans hj)

variable [DecidableEq ν]

/-- an entry of a directory, or its removal -/
def link (d : Ino) (x : ν) (i : Option Ino) : Fs ν :=
  match fs.nodes d with
  | some (.dir entries parent) => fs.put d (.dir (Function.update entries x i) parent)
  | _ => fs

/-- a new node in a directory -/
def add (d : Ino) (x : ν) (node : Node ν) : Fs ν := (fs.put fs.next node).link d x (some fs.next)

/-- a file that is opened for writing, which follows links, and what is in it when it is closed -/
def write (p : Path ν) (bytes : List UInt8) : Option (Fs ν) :=
  match fs.resolve p with
  | some (_, .node i) => if (fs.content i).isSome then some (fs.put i (.file bytes)) else none
  | some (_, .absent d x) => some (fs.add d x (.file bytes))
  | none => none

inductive Made (ν : Type) where
  | made (fs : Fs ν)
  | present
  | missing

/-- `os.mkdir` -/
def mkdir (p : Path ν) : Made ν :=
  match fs.resolve p with
  | some (_, .node _) => .present
  | some (_, .absent d x) =>
    if fs.entry p = some (d, x) then .made (fs.add d x (.dir (fun _ => none) d)) else .present
  | none => .missing

/-- a directory that may be there already; those that are not allowed are not made -/
def makeDir (allowed : Path ν → Bool) (p : Path ν) : Fs ν × Bool :=
  match fs.mkdir p with
  | .made fs' => if allowed p then (fs', true) else (fs, false)
  | .present => (fs, fs.isDir p)
  | .missing => (fs, false)

/-- `mkdir(parents=True, exist_ok=True)`, up to `n` components of the path -/
def mkdirs (allowed : Path ν → Bool) (absolute : Bool) : Nat → List (Comp ν) → Fs ν → Fs ν × Bool
  | 0, comps, fs => fs.makeDir allowed ⟨absolute, comps⟩
  | n + 1, comps, fs =>
    match fs.mkdir ⟨absolute, comps⟩ with
    | .missing =>
      let r := mkdirs allowed absolute n comps.dropLast fs
      if r.2 then r.1.makeDir allowed ⟨absolute, comps⟩ else r
    | _ => fs.makeDir allowed ⟨absolute, comps⟩

def unlink (p : Path ν) : Option (Fs ν) :=
  match fs.entry p with
  | none => none
  | some (d, x) =>
    match fs.nodes d with
    | some (.dir entries _) =>
      match entries x with
      | none => none
      | some i => if fs.isDirectory i then none else some (fs.link d x none)
    | _ => none

/-- the node of an entry -/
def child (e : Ino × ν) : Option Ino :=
  match fs.nodes e.1 with
  | some (.dir entries _) => entries e.2
  | _ => none

/-- `os.replace` of a file -/
def rename (p q : Path ν) : Option (Fs ν) :=
  match fs.entry p, fs.entry q with
  | some e, some e' =>
    match fs.child e with
    | none => none
    | some i =>
      if ¬ fs.isDirectory e'.1 ∨ fs.isDirectory i ∨ (fs.child e').any fs.isDirectory then none
      else if fs.child e' = some i then some fs
      else some ((fs.link e.1 e.2 none).link e'.1 e'.2 (some i))
  | _, _ => none

end Fs

/-! ## what changes leave -/

/-- everything but the entries in `C` and the bytes of the files in `W` is left; there may be new nodes
and new entries -/
structure Keeps (C : Set (Ino × ν)) (W : Set Ino) (fs fs' : Fs ν) : Prop where
  root : fs'.root = fs.root
  cwd : fs'.cwd = fs.cwd
  limit : fs'.limit = fs.limit
  dir : ∀ d entries parent, fs.nodes d = some (.dir entries parent) →
    ∃ entries', fs'.nodes d = some (.dir entries' parent) ∧
      ∀ x i, entries x = some i → (d, x) ∉ C → entries' x = some i
  link : ∀ i target, fs.nodes i = some (.link target) → fs'.nodes i = some (.link target)
  file : ∀ i bytes, fs.nodes i = some (.file bytes) →
    ∃ bytes', fs'.nodes i = some (.file bytes') ∧ (i ∉ W → bytes' = bytes)

namespace Keeps
variable {C D : Set (Ino × ν)} {W V : Set Ino} {fs fs' fs'' : Fs ν}

theorem refl (C : Set (Ino × ν)) (W : Set Ino) (fs : Fs ν) : Keeps C W fs fs where
  root := rfl
  cwd := rfl
  limit := rfl
  dir := fun _ entries _ h => ⟨entries, h, fun _ _ hx _ => hx⟩
  link := fun _ _ h => h
  file := fun _ bytes h => ⟨bytes, h, fun _ => rfl⟩

theorem trans (h : Keeps C W fs fs') (h' : Keeps D V fs' fs'') : Keeps (C ∪ D) (W ∪ V) fs fs'' where
  root := h'.root.trans h.root
  cwd := h'.cwd.trans h.cwd
  limit := h'.limit.trans h.limit
  dir := by
    intro d entries parent hd
    obtain ⟨entries', hd', hkeep⟩ := h.dir d entries parent hd
    obtain ⟨entries'', hd'', hkeep'⟩ := h'.dir d entries' parent hd'
    refine ⟨entries'', hd'', fun x i hx hC => ?_⟩
    exact hkeep' x i (hkeep x i hx fun hmem => hC (.inl hmem)) fun hmem => hC (.inr hmem)
  link := fun i target hi => h'.link i target (h.link i target hi)
  file := by
    intro i bytes hi
    obtain ⟨bytes', hi', hsame⟩ := h.file i bytes hi
    obtain ⟨bytes'', hi'', hsame'⟩ := h'.file i bytes' hi'
    refine ⟨bytes'', hi'', fun hW => ?_⟩
    rw [hsame' fun hmem => hW (.inr hmem), hsame fun hmem => hW (.inl hmem)]

theorem mono (h : Keeps C W fs fs') (hCD : C ⊆ D) (hWV : W ⊆ V) : Keeps D V fs fs' where
  root := h.root
  cwd := h.cwd
  limit := h.limit
  dir := by
    intro d entries parent hd
    obtain ⟨entries', hd', hkeep⟩ := h.dir d entries parent hd
    exact ⟨entries', hd', fun x i hx hD => hkeep x i hx fun hC => hD (hCD hC)⟩
  link := h.link
  file := by
    intro i bytes hi
    obtain ⟨bytes', hi', hsame⟩ := h.file i bytes hi
    exact ⟨bytes', hi', fun hV => hsame fun hW => hV (hWV hW)⟩

theorem content (h : Keeps C W fs fs') {i : Ino} {bytes : List UInt8} (hi : fs.content i = some bytes)
    (hW : i ∉ W) : fs'.content i = some bytes := by
  unfold Fs.content at hi
  split at hi
  case h_2 => cases hi
  rename_i found hnode
  cases hi
  obtain ⟨bytes', hi', hsame⟩ := h.file i bytes hnode
  rw [Fs.content, hi', hsame hW]

theorem child (h : Keeps C W fs fs') {e : Ino × ν} {i : Ino} (he : fs.child e = some i) (hC : e ∉ C) :
    fs'.child e = some i := by
  unfold Fs.child at he
  split at he
  case h_2 => cases he
  rename_i entries parent hd
  obtain ⟨entries', hd', hkeep⟩ := h.dir _ _ _ hd
  rw [Fs.child, hd']
  exact hkeep _ _ he hC

theorem isDirectory (h : Keeps C W fs fs') {i : Ino} (hi : fs.isDirectory i = true) :
    fs'.isDirectory i = true := by
  unfold Fs.isDirectory at hi
  split at hi
  case h_2 => cases hi
  rename_i entries parent hd
  obtain ⟨entries', hd', _⟩ := h.dir _ _ _ hd
  rw [Fs.isDirectory, hd']

theorem start (h : Keeps C W fs fs') (p : Path ν) : fs'.start p = fs.start p := by
  rw [Fs.start, Fs.start, h.root, h.cwd]

end Keeps

/-! ## resolution -/

variable {fs fs' : Fs ν}

theorem nodes_of_content {i : Ino} {bytes : List UInt8} (h : fs.content i = some bytes) :
    fs.nodes i = some (.file bytes) := by
  unfold Fs.content at h
  split at h
  case h_2 => cases h
  rename_i found hi
  cases h
  exact hi

theorem nodes_of_isDirectory {i : Ino} (h : fs.isDirectory i = true) :
    ∃ entries parent, fs.nodes i = some (.dir entries parent) := by
  unfold Fs.isDirectory at h
  split at h
  case h_2 => cases h
  rename_i entries parent hi
  exact ⟨entries, parent, hi⟩

theorem hop_on {d i : Ino} {c : Comp ν} {e : Option (Ino × ν)} {more : List (Comp ν)}
    (h : fs.hop d c = .on e i more) : ∃ entries parent, fs.nodes d = some (.dir entries parent) ∧
      ((c = .up ∧ e = none ∧ i = parent ∧ more = []) ∨
        ∃ x j, c = .name x ∧ e = some (d, x) ∧ entries x = some j ∧
          ((∃ target, fs.nodes j = some (.link target) ∧ more = target.comps ∧
              i = if target.absolute then fs.root else d) ∨
            (i = j ∧ more = [] ∧ ((fs.content j).isSome ∨ fs.isDirectory j)))) := by
  unfold Fs.hop at h
  split at h
  case h_2 => cases h
  rename_i entries parent hd
  refine ⟨entries, parent, hd, ?_⟩
  cases c with
  | up =>
    cases h
    exact .inl ⟨rfl, rfl, rfl, rfl⟩
  | name x =>
    right
    dsimp only at h
    cases hx : entries x with
    | none =>
      rw [hx] at h
      cases h
    | some j =>
      rw [hx] at h
      dsimp only at h
      cases hj : fs.nodes j with
      | none =>
        rw [hj] at h
        cases h
      | some node =>
        rw [hj] at h
        cases node with
        | link target =>
          cases h
          exact ⟨x, j, rfl, rfl, hx, .inl ⟨target, hj, rfl, rfl⟩⟩
        | file bytes =>
          cases h
          exact ⟨x, _, rfl, rfl, hx, .inr ⟨rfl, rfl, .inl (by rw [Fs.content, hj]; rfl)⟩⟩
        | dir entries' parent' =>
          cases h
          exact ⟨x, _, rfl, rfl, hx, .inr ⟨rfl, rfl, .inr (by rw [Fs.isDirectory, hj])⟩⟩

/-- a step whose entry is left is made again -/
theorem Keeps.hop {C : Set (Ino × ν)} {W : Set Ino} (h : Keeps C W fs fs') {d i : Ino} {c : Comp ν}
    {e : Option (Ino × ν)} {more : List (Comp ν)} (hop : fs.hop d c = .on e i more)
    (hC : ∀ e' ∈ e, e' ∉ C) : fs'.hop d c = .on e i more := by
  obtain ⟨entries, parent, hd, hstep⟩ := hop_on hop
  obtain ⟨entries', hd', hkeep⟩ := h.dir d entries parent hd
  obtain ⟨rfl, rfl, rfl, rfl⟩ | ⟨x, j, rfl, rfl, hx, hj⟩ := hstep
  · rw [Fs.hop, hd']
  · have hx' : entries' x = some j := hkeep x j hx (hC _ rfl)
    obtain ⟨target, hlink, rfl, rfl⟩ | ⟨rfl, rfl, hnode⟩ := hj
    · rw [Fs.hop, hd']
      simp only [hx', h.link j target hlink, h.root]
    · rcases hnode with hfile | hdir
      · obtain ⟨bytes, hbytes⟩ := Option.isSome_iff_exists.mp hfile
        obtain ⟨bytes', hbytes', _⟩ := h.file i bytes (nodes_of_content hbytes)
        rw [Fs.hop, hd']
        simp only [hx', hbytes']
      · obtain ⟨entries₁, parent₁, hnode⟩ := nodes_of_isDirectory hdir
        obtain ⟨entries₁', hnode', _⟩ := h.dir i entries₁ parent₁ hnode
        rw [Fs.hop, hd']
        simp only [hx', hnode']

/-- **a path whose entries are left leads to the same node** -/
theorem walk_keeps {C : Set (Ino × ν)} {W : Set Ino} (h : Keeps C W fs fs') {n : Nat} {d i : Ino}
    {p : List (Comp ν)} {trail : List (Ino × ν)} (hw : fs.walk n d p = some (trail, .node i))
    (hC : ∀ e ∈ trail, e ∉ C) : fs'.walk n d p = some (trail, .node i) := by
  induction n generalizing d p trail with
  | zero => cases hw
  | succ n ih =>
    cases p with
    | nil => exact hw
    | cons c rest =>
      rw [Fs.walk] at hw ⊢
      cases hop : fs.hop d c with
      | stop =>
        rw [hop] at hw
        cases hw
      | absent d' x =>
        rw [hop] at hw
        dsimp only at hw
        split at hw
        · cases hw
        · cases hw
      | on e j more =>
        rw [hop] at hw
        obtain ⟨⟨trail', found⟩, hr, heq⟩ := Option.map_eq_some_iff.mp hw
        cases heq
        have hhop : fs'.hop d c = .on e j more := by
          refine h.hop hop fun e' he' => hC e' (List.mem_append_left _ ?_)
          rw [Option.mem_toList]
          exact he'
        rw [hhop]
        dsimp only
        rw [ih hr fun e' he' => hC e' (List.mem_append_right _ he')]
        rfl

theorem nodes_of_child {e : Ino × ν} {i : Ino} (h : fs.child e = some i) :
    ∃ entries parent, fs.nodes e.1 = some (.dir entries parent) ∧ entries e.2 = some i := by
  unfold Fs.child at h
  split at h
  · rename_i entries parent hd
    exact ⟨entries, parent, hd, h⟩
  · cases h

/-- a node that is no directory leads nowhere else -/
theorem walk_file {i : Ino} (hi : fs.isDirectory i = false) {n : Nat} {p : List (Comp ν)}
    {r : List (Ino × ν) × Found ν} (h : fs.walk n i p = some r) : r = ([], .node i) := by
  cases n with
  | zero => cases h
  | succ n =>
    cases p with
    | nil =>
      cases h
      rfl
    | cons c rest =>
      rw [Fs.walk] at h
      cases hop : fs.hop i c with
      | stop =>
        rw [hop] at h
        cases h
      | absent d x =>
        unfold Fs.hop at hop
        split at hop
        · rename_i entries parent hd
          rw [Fs.isDirectory, hd] at hi
          cases hi
        · cases hop
      | on e j more =>
        obtain ⟨entries, parent, hd, _⟩ := hop_on hop
        rw [Fs.isDirectory, hd] at hi
        cases hi

theorem hop_name {d : Ino} {entries : ν → Option Ino} {parent : Ino}
    (hd : fs.nodes d = some (.dir entries parent)) {x : ν} (hx : entries x = none) :
    fs.hop d (.name x) = .absent d x := by
  rw [Fs.hop, hd]
  simp only [hx]

theorem hop_file {d i : Ino} {entries : ν → Option Ino} {parent : Ino} {bytes : List UInt8}
    (hd : fs.nodes d = some (.dir entries parent)) {x : ν} (hx : entries x = some i)
    (hi : fs.nodes i = some (.file bytes)) : fs.hop d (.name x) = .on (some (d, x)) i [] := by
  rw [Fs.hop, hd]
  simp only [hx, hi]

/-- **a path through an entry that is gone or names the file `j` leads to no other node**, and no
longer path does -/
theorem walk_replaced {C : Set (Ino × ν)} {W : Set Ino} (h : Keeps C W fs fs') {j : Ino}
    (hC : ∀ e ∈ C, ∀ i, fs'.child e = some i → i = j) (hj : (fs'.content j).isSome) {n m : Nat}
    {d i : Ino} {p q : List (Comp ν)} {trail trail' : List (Ino × ν)} {found : Found ν}
    (hw : fs.walk n d p = some (trail, found)) (hmem : ∃ e ∈ trail, e ∈ C)
    (hw' : fs'.walk m d (p ++ q) = some (trail', .node i)) : i = j := by
  induction n generalizing m d p trail trail' found with
  | zero => cases hw
  | succ n ih =>
    cases p with
    | nil =>
      cases hw
      obtain ⟨e, he, _⟩ := hmem
      cases he
    | cons c rest =>
      cases m with
      | zero => cases hw'
      | succ m =>
      rw [Fs.walk] at hw
      rw [List.cons_append, Fs.walk] at hw'
      cases hop : fs.hop d c with
      | stop =>
        rw [hop] at hw
        cases hw
      | absent d' x =>
        rw [hop] at hw
        dsimp only at hw
        split at hw
        · cases hw
          obtain ⟨e, he, _⟩ := hmem
          cases he
        · cases hw
      | on e k more =>
        rw [hop] at hw
        obtain ⟨⟨trail₁, found₁⟩, hr, heq⟩ := Option.map_eq_some_iff.mp hw
        cases heq
        by_cases hmemC : ∃ e' ∈ e, e' ∈ C
        · obtain ⟨e', he', heC⟩ := hmemC
          obtain ⟨entries, parent, hd, ⟨_, rfl, _⟩ | ⟨x, _, rfl, rfl, _⟩⟩ := hop_on hop
          · cases he'
          cases he'
          obtain ⟨entries', hd', _⟩ := h.dir d entries parent hd
          cases hx' : entries' x with
          | none =>
            rw [hop_name hd' hx'] at hw'
            dsimp only at hw'
            split at hw'
            · cases hw'
            · cases hw'
          | some i' =>
            have hi' : i' = j := hC _ heC i' (by rw [Fs.child, hd']; exact hx')
            obtain ⟨bytes, hbytes⟩ := Option.isSome_iff_exists.mp hj
            have hnode := nodes_of_content hbytes
            rw [hop_file hd' (hi' ▸ hx') hnode] at hw'
            obtain ⟨r, hr', heq'⟩ := Option.map_eq_some_iff.mp hw'
            have hend : r = ([], .node j) := walk_file (by rw [Fs.isDirectory, hnode]) hr'
            rw [hend] at heq'
            cases heq'
            rfl
        · have hhop : fs'.hop d c = .on e k more :=
            h.hop hop fun e' he' hC' => hmemC ⟨e', he', hC'⟩
          rw [hhop] at hw'
          obtain ⟨⟨trail₁', found₁'⟩, hr', heq'⟩ := Option.map_eq_some_iff.mp hw'
          cases heq'
          rw [← List.append_assoc] at hr'
          refine ih hr ?_ hr'
          obtain ⟨e', he', heC⟩ := hmem
          rcases List.mem_append.mp he' with hhead | htail
          · exact absurd ⟨e', Option.mem_toList.mp hhead, heC⟩ hmemC
          · exact ⟨e', htail, heC⟩

/-- the entries on the way of a path name nodes -/
theorem walk_trail {n : Nat} {d : Ino} {p : List (Comp ν)} {trail : List (Ino × ν)} {found : Found ν}
    (hw : fs.walk n d p = some (trail, found)) : ∀ e ∈ trail, ∃ i, fs.child e = some i := by
  induction n generalizing d p trail with
  | zero => cases hw
  | succ n ih =>
    cases p with
    | nil =>
      cases hw
      intro e he
      cases he
    | cons c rest =>
      rw [Fs.walk] at hw
      cases hop : fs.hop d c with
      | stop =>
        rw [hop] at hw
        cases hw
      | absent d' x =>
        rw [hop] at hw
        dsimp only at hw
        split at hw
        · cases hw
          intro e he
          cases he
        · cases hw
      | on e k more =>
        rw [hop] at hw
        obtain ⟨⟨trail₁, found₁⟩, hr, heq⟩ := Option.map_eq_some_iff.mp hw
        cases heq
        intro e' he'
        rcases List.mem_append.mp he' with hhead | htail
        · obtain ⟨entries, parent, hd, ⟨_, rfl, _⟩ | ⟨x, j, _, rfl, hx, _⟩⟩ := hop_on hop
          · cases hhead
          · cases List.mem_singleton.mp hhead
            exact ⟨j, by rw [Fs.child, hd]; exact hx⟩
        · exact ih hr e' htail

/-- a path that lacks its last name ends in a directory without that name -/
theorem walk_absent {n : Nat} {d d' : Ino} {x : ν} {p : List (Comp ν)} {trail : List (Ino × ν)}
    (hw : fs.walk n d p = some (trail, .absent d' x)) :
    ∃ entries parent, fs.nodes d' = some (.dir entries parent) ∧ entries x = none := by
  induction n generalizing d p trail with
  | zero => cases hw
  | succ n ih =>
    cases p with
    | nil => cases hw
    | cons c rest =>
      rw [Fs.walk] at hw
      cases hop : fs.hop d c with
      | stop =>
        rw [hop] at hw
        cases hw
      | absent d₁ x₁ =>
        rw [hop] at hw
        dsimp only at hw
        split at hw
        case isFalse => cases hw
        cases hw
        unfold Fs.hop at hop
        split at hop
        case h_2 => cases hop
        rename_i entries parent hd
        cases c with
        | up => cases hop
        | name y =>
          dsimp only at hop
          split at hop
          · rename_i hy
            cases hop
            exact ⟨entries, parent, hd, hy⟩
          · split at hop
            all_goals cases hop
      | on e k more =>
        rw [hop] at hw
        obtain ⟨⟨trail₁, found₁⟩, hr, heq⟩ := Option.map_eq_some_iff.mp hw
        cases heq
        exact ih hr

/-- **one more name**: a path to a directory without it, or with a file of it -/
theorem walk_snoc {n : Nat} {d d' : Ino} {p : List (Comp ν)} {trail : List (Ino × ν)}
    (hw : fs.walk n d p = some (trail, .node d')) {entries : ν → Option Ino} {parent : Ino}
    (hd : fs.nodes d' = some (.dir entries parent)) (x : ν) :
    (entries x = none → fs.walk (n + 1) d (p ++ [.name x]) = some (trail, .absent d' x)) ∧
      ∀ i bytes, entries x = some i → fs.nodes i = some (.file bytes) →
        fs.walk (n + 1) d (p ++ [.name x]) = some (trail ++ [(d', x)], .node i) := by
  induction n generalizing d p trail with
  | zero => cases hw
  | succ n ih =>
    cases p with
    | nil =>
      cases hw
      refine ⟨fun hx => ?_, fun i bytes hx hi => ?_⟩
      · rw [List.nil_append, Fs.walk, hop_name hd hx]
        rfl
      · rw [List.nil_append, Fs.walk, hop_file hd hx hi]
        rfl
    | cons c rest =>
      rw [Fs.walk] at hw
      cases hop : fs.hop d c with
      | stop =>
        rw [hop] at hw
        cases hw
      | absent d₁ x₁ =>
        rw [hop] at hw
        dsimp only at hw
        split at hw
        · cases hw
        · cases hw
      | on e k more =>
        rw [hop] at hw
        obtain ⟨⟨trail₁, found₁⟩, hr, heq⟩ := Option.map_eq_some_iff.mp hw
        cases heq
        obtain ⟨habsent, hfile⟩ := ih hr
        refine ⟨fun hx => ?_, fun i bytes hx hi => ?_⟩
        · rw [List.cons_append, Fs.walk, hop]
          dsimp only
          rw [← List.append_assoc, habsent hx]
          rfl
        · rw [List.cons_append, Fs.walk, hop]
          dsimp only
          rw [← List.append_assoc, hfile i bytes hx hi, Option.map_some, List.append_assoc]

/-- no entry has the name -/
def Unused (fs : Fs ν) (t : ν) : Prop := ∀ d, fs.child (d, t) = none

/-- the way to a name that is not in use, and the way to its directory, which what happens elsewhere
does not change -/
theorem walk_unused {C : Set (Ino × ν)} {W : Set Ino} (h : Keeps C W fs fs') {t : ν} (ht : Unused fs t)
    {n : Nat} {s : Ino} {p : List (Comp ν)} {trail : List (Ino × ν)} {found : Found ν}
    (hw : fs.walk n s (p ++ [.name t]) = some (trail, found)) (hC : ∀ e ∈ trail, e ∉ C) :
    ∃ d, found = .absent d t ∧
      ∀ m r, fs'.walk m s p = some r → r = (trail, .node d) ∧ fs.walk m s p = some r := by
  induction n generalizing s p trail with
  | zero => cases hw
  | succ n ih =>
    cases p with
    | nil =>
      rw [List.nil_append, Fs.walk] at hw
      cases hop : fs.hop s (.name t) with
      | stop =>
        rw [hop] at hw
        cases hw
      | absent d x =>
        have hsame : d = s ∧ x = t := by
          unfold Fs.hop at hop
          split at hop
          case h_2 => cases hop
          dsimp only at hop
          split at hop
          · cases hop
            exact ⟨rfl, rfl⟩
          · split at hop
            all_goals cases hop
        obtain ⟨rfl, rfl⟩ := hsame
        rw [hop] at hw
        cases hw
        refine ⟨d, rfl, fun m r hr => ?_⟩
        cases m with
        | zero => cases hr
        | succ m =>
          cases hr
          exact ⟨rfl, rfl⟩
      | on e i more =>
        obtain ⟨entries, parent, hd, ⟨hc, _⟩ | ⟨x, j, hc, _, hx, _⟩⟩ := hop_on hop
        · cases hc
        · cases hc
          have hnone : fs.child (s, t) = none := ht s
          rw [Fs.child, hd] at hnone
          rw [show entries t = none from hnone] at hx
          cases hx
    | cons c rest =>
      rw [List.cons_append, Fs.walk] at hw
      cases hop : fs.hop s c with
      | stop =>
        rw [hop] at hw
        cases hw
      | absent d x =>
        rw [hop] at hw
        dsimp only at hw
        rw [if_neg (by simp)] at hw
        cases hw
      | on e i more =>
        rw [hop] at hw
        obtain ⟨⟨trail₁, found₁⟩, hr, heq⟩ := Option.map_eq_some_iff.mp hw
        cases heq
        rw [← List.append_assoc] at hr
        obtain ⟨d, hfound, hback⟩ := ih hr fun e' he' => hC e' (List.mem_append_right _ he')
        refine ⟨d, hfound, fun m r hm => ?_⟩
        cases m with
        | zero => cases hm
        | succ m =>
          have hhop : fs'.hop s c = .on e i more := by
            refine h.hop hop fun e' he' => hC e' (List.mem_append_left _ ?_)
            rw [Option.mem_toList]
            exact he'
          rw [Fs.walk, hhop] at hm
          obtain ⟨r', hr', rfl⟩ := Option.map_eq_some_iff.mp hm
          obtain ⟨rfl, hsame⟩ := hback m r' hr'
          refine ⟨rfl, ?_⟩
          rw [Fs.walk, hop]
          dsimp only
          rw [hsame]
          rfl

theorem read_eq_some {p : Path ν} {bytes : List UInt8} (h : fs.read p = some bytes) :
    ∃ trail i, fs.resolve p = some (trail, .node i) ∧ fs.content i = some bytes := by
  unfold Fs.read at h
  split at h
  · rename_i trail i hp
    exact ⟨trail, i, hp, h⟩
  · cases h

theorem read_of_resolve {p : Path ν} {trail : List (Ino × ν)} {i : Ino}
    (hp : fs.resolve p = some (trail, .node i)) : fs.read p = fs.content i := by
  rw [Fs.read, hp]

theorem resolve_keeps {C : Set (Ino × ν)} {W : Set Ino} (h : Keeps C W fs fs') {p : Path ν}
    {trail : List (Ino × ν)} {i : Ino} (hp : fs.resolve p = some (trail, .node i))
    (hC : ∀ e ∈ trail, e ∉ C) : fs'.resolve p = some (trail, .node i) := by
  rw [Fs.resolve, h.limit, h.start]
  exact walk_keeps h hp hC

/-- the bytes that a path leads to are left with its entries -/
theorem read_keeps {C : Set (Ino × ν)} {W : Set Ino} (h : Keeps C W fs fs') {p : Path ν}
    {trail : List (Ino × ν)} {i : Ino} {bytes : List UInt8}
    (hp : fs.resolve p = some (trail, .node i)) (hi : fs.content i = some bytes)
    (hC : ∀ e ∈ trail, e ∉ C) (hW : i ∉ W) : fs'.read p = some bytes := by
  rw [read_of_resolve (resolve_keeps h hp hC), h.content hi hW]

/-! ## what each call leaves -/

theorem put_of_ne {i j : Ino} (node : Node ν) (h : j ≠ i) : (fs.put i node).nodes j = fs.nodes j :=
  Function.update_of_ne h _ _

@[simp] theorem put_self (i : Ino) (node : Node ν) : (fs.put i node).nodes i = some node :=
  Function.update_self _ _ _

/-- a file gets other bytes -/
theorem keeps_put {i : Ino} {bytes : List UInt8} (h : fs.content i = some bytes)
    (bytes' : List UInt8) : Keeps ∅ {i} fs (fs.put i (.file bytes')) where
  root := rfl
  cwd := rfl
  limit := rfl
  dir := by
    intro d entries parent hd
    have hne : d ≠ i := by
      rintro rfl
      rw [nodes_of_content h] at hd
      cases hd
    exact ⟨entries, by rw [put_of_ne _ hne, hd], fun x i hx _ => hx⟩
  link := by
    intro j target hj
    have hne : j ≠ i := by
      rintro rfl
      rw [nodes_of_content h] at hj
      cases hj
    rw [put_of_ne _ hne, hj]
  file := by
    intro j found hj
    by_cases hji : j = i
    · subst hji
      exact ⟨bytes', put_self _ _, fun hW => absurd rfl hW⟩
    · exact ⟨found, by rw [put_of_ne _ hji, hj], fun _ => rfl⟩

/-- a new node -/
theorem keeps_new (node : Node ν) : Keeps ∅ ∅ fs (fs.put fs.next node) := by
  have hne : ∀ j node', fs.nodes j = some node' → j ≠ fs.next := by
    rintro j node' hj rfl
    rw [fs.free fs.next le_rfl] at hj
    cases hj
  constructor
  · rfl
  · rfl
  · rfl
  · intro d entries parent hd
    exact ⟨entries, by rw [put_of_ne _ (hne d _ hd), hd], fun x i hx _ => hx⟩
  · intro j target hj
    rw [put_of_ne _ (hne j _ hj), hj]
  · intro j found hj
    exact ⟨found, by rw [put_of_ne _ (hne j _ hj), hj], fun _ => rfl⟩

variable [DecidableEq ν]

theorem link_eq {d : Ino} {entries : ν → Option Ino} {parent : Ino}
    (hd : fs.nodes d = some (.dir entries parent)) (x : ν) (i : Option Ino) :
    fs.link d x i = fs.put d (.dir (Function.update entries x i) parent) := by
  rw [Fs.link, hd]

/-- an entry changes -/
theorem keeps_link (d : Ino) (x : ν) (i : Option Ino) : Keeps {(d, x)} ∅ fs (fs.link d x i) := by
  cases hd : fs.nodes d with
  | none =>
    rw [Fs.link, hd]
    exact Keeps.refl _ _ _
  | some node =>
    cases node with
    | file bytes =>
      rw [Fs.link, hd]
      exact Keeps.refl _ _ _
    | link target =>
      rw [Fs.link, hd]
      exact Keeps.refl _ _ _
    | dir entries parent =>
      rw [link_eq hd]
      constructor
      · rfl
      · rfl
      · rfl
      · intro d' entries' parent' hd'
        by_cases hdd : d' = d
        · subst hdd
          rw [hd] at hd'
          cases hd'
          refine ⟨_, put_self _ _, fun y j hy hC => ?_⟩
          have hyx : y ≠ x := fun h => hC (by rw [h]; rfl)
          rw [Function.update_of_ne hyx]
          exact hy
        · exact ⟨entries', by rw [put_of_ne _ hdd, hd'], fun y j hy _ => hy⟩
      · intro j target hj
        have hne : j ≠ d := by
          rintro rfl
          rw [hd] at hj
          cases hj
        rw [put_of_ne _ hne, hj]
      · intro j found hj
        have hne : j ≠ d := by
          rintro rfl
          rw [hd] at hj
          cases hj
        exact ⟨found, by rw [put_of_ne _ hne, hj], fun _ => rfl⟩

/-- a missing entry is made -/
theorem keeps_link_new {d : Ino} {entries : ν → Option Ino} {parent : Ino}
    (hd : fs.nodes d = some (.dir entries parent)) {x : ν} (hx : entries x = none) (i : Option Ino) :
    Keeps ∅ ∅ fs (fs.link d x i) := by
  have hlink : Keeps {(d, x)} ∅ fs (fs.link d x i) := keeps_link d x i
  refine { hlink with dir := fun d' entries' parent' hd' => ?_ }
  obtain ⟨entries'', hd'', hkeep⟩ := hlink.dir d' entries' parent' hd'
  refine ⟨entries'', hd'', fun y j hy _ => hkeep y j hy fun hC => ?_⟩
  cases hC
  rw [hd] at hd'
  cases hd'
  rw [hx] at hy
  cases hy

theorem child_link {d : Ino} {entries : ν → Option Ino} {parent : Ino}
    (hd : fs.nodes d = some (.dir entries parent)) (x : ν) (i : Option Ino) :
    (fs.link d x i).child (d, x) = i := by
  rw [link_eq hd, Fs.child, put_self]
  exact Function.update_self _ _ _

theorem child_link_of_ne (d : Ino) (x : ν) (i : Option Ino) {e : Ino × ν} (h : e ≠ (d, x)) :
    (fs.link d x i).child e = fs.child e := by
  unfold Fs.link
  split
  case h_2 => rfl
  rename_i entries parent hd
  by_cases he : e.1 = d
  · have hx : e.2 ≠ x := fun hx => h (Prod.ext he hx)
    rw [Fs.child, Fs.child, he, put_self, hd]
    exact Function.update_of_ne hx _ _
  · rw [Fs.child, Fs.child, put_of_ne _ he]

theorem content_link (d : Ino) (x : ν) (i : Option Ino) (j : Ino) :
    (fs.link d x i).content j = fs.content j := by
  unfold Fs.link
  split
  case h_2 => rfl
  rename_i entries parent hd
  by_cases hj : j = d
  · subst hj
    rw [Fs.content, Fs.content, put_self, hd]
  · rw [Fs.content, Fs.content, put_of_ne _ hj]

theorem isDirectory_link (d : Ino) (x : ν) (i : Option Ino) (j : Ino) :
    (fs.link d x i).isDirectory j = fs.isDirectory j := by
  unfold Fs.link
  split
  case h_2 => rfl
  rename_i entries parent hd
  by_cases hj : j = d
  · subst hj
    rw [Fs.isDirectory, Fs.isDirectory, put_self, hd]
  · rw [Fs.isDirectory, Fs.isDirectory, put_of_ne _ hj]

/-- a new node in a directory that lacks its name -/
theorem keeps_add {d : Ino} {entries : ν → Option Ino} {parent : Ino}
    (hd : fs.nodes d = some (.dir entries parent)) {x : ν} (hx : entries x = none) (node : Node ν) :
    Keeps ∅ ∅ fs (fs.add d x node) := by
  have hne : d ≠ fs.next := by
    rintro rfl
    rw [fs.free _ le_rfl] at hd
    cases hd
  have hlink : Keeps ∅ ∅ (fs.put fs.next node) (fs.add d x node) :=
    keeps_link_new (by rw [put_of_ne _ hne, hd]) hx _
  exact ((keeps_new node).trans hlink).mono (by simp) (by simp)

theorem content_add (d : Ino) (x : ν) (bytes : List UInt8) :
    (fs.add d x (.file bytes)).content fs.next = some bytes := by
  rw [Fs.add, content_link, Fs.content, put_self]

theorem child_add {d : Ino} {entries : ν → Option Ino} {parent : Ino}
    (hd : fs.nodes d = some (.dir entries parent)) (x : ν) (node : Node ν) :
    (fs.add d x node).child (d, x) = some fs.next := by
  have hne : d ≠ fs.next := by
    rintro rfl
    rw [fs.free _ le_rfl] at hd
    cases hd
  have hd' : (fs.put fs.next node).nodes d = some (.dir entries parent) := by
    rw [put_of_ne _ hne, hd]
  exact child_link hd' x _

theorem isDirectory_add {d : Ino} {x : ν} {bytes : List UInt8} {k : Ino}
    (h : (fs.add d x (.file bytes)).isDirectory k = true) : fs.isDirectory k = true := by
  rw [Fs.add, isDirectory_link] at h
  by_cases hk : k = fs.next
  · rw [hk, Fs.isDirectory, put_self] at h
    cases h
  · rw [Fs.isDirectory, put_of_ne _ hk] at h
    exact h

theorem keeps_write {p : Path ν} {bytes : List UInt8} (h : fs.write p bytes = some fs') :
    ∃ W, Keeps ∅ W fs fs' ∧ ∀ i ∈ W, ∃ trail, fs.resolve p = some (trail, .node i) := by
  unfold Fs.write at h
  split at h
  · rename_i trail i hp
    split at h
    case isFalse => cases h
    rename_i hi
    cases h
    obtain ⟨found, hfound⟩ := Option.isSome_iff_exists.mp hi
    refine ⟨{i}, keeps_put hfound bytes, fun j hj => ⟨trail, ?_⟩⟩
    cases hj
    exact hp
  · rename_i trail d x hp
    cases h
    obtain ⟨entries, parent, hd, hx⟩ := walk_absent hp
    exact ⟨∅, keeps_add hd hx _, fun i hi => hi.elim⟩
  · cases h

theorem keeps_made {p : Path ν} (h : fs.mkdir p = .made fs') : Keeps ∅ ∅ fs fs' := by
  unfold Fs.mkdir at h
  split at h
  · cases h
  · rename_i trail d x hp
    obtain ⟨entries, parent, hd, hx⟩ := walk_absent hp
    split at h
    · cases h
      exact keeps_add hd hx _
    · cases h
  · cases h

theorem keeps_makeDir (allowed : Path ν → Bool) (p : Path ν) :
    Keeps ∅ ∅ fs (fs.makeDir allowed p).1 := by
  unfold Fs.makeDir
  split
  · rename_i made hmade
    split
    · exact keeps_made hmade
    · exact Keeps.refl _ _ _
  · exact Keeps.refl _ _ _
  · exact Keeps.refl _ _ _

theorem keeps_mkdirs (allowed : Path ν → Bool) (absolute : Bool) (n : Nat) (comps : List (Comp ν))
    (fs : Fs ν) : Keeps ∅ ∅ fs (fs.mkdirs allowed absolute n comps).1 := by
  induction n generalizing comps fs with
  | zero => exact keeps_makeDir allowed _
  | succ n ih =>
    rw [Fs.mkdirs]
    split
    case h_2 => exact keeps_makeDir allowed _
    dsimp only
    split
    · exact ((ih comps.dropLast fs).trans (keeps_makeDir allowed _)).mono (by simp) (by simp)
    · exact ih comps.dropLast fs

theorem keeps_unlink {p : Path ν} (h : fs.unlink p = some fs') :
    ∃ e, fs.entry p = some e ∧ Keeps {e} ∅ fs fs' := by
  unfold Fs.unlink at h
  split at h
  · cases h
  rename_i d x hp
  split at h
  case h_2 => cases h
  split at h
  · cases h
  split at h
  · cases h
  · cases h
    exact ⟨(d, x), hp, keeps_link d x none⟩

theorem rename_isSome {p q : Path ν} {e e' : Ino × ν} (he : fs.entry p = some e)
    (he' : fs.entry q = some e') {i : Ino} (hi : fs.child e = some i) (hfile : fs.isDirectory i = false)
    (hdir : fs.isDirectory e'.1 = true) (hold : ∀ k, fs.child e' = some k → fs.isDirectory k = false) :
    (fs.rename p q).isSome := by
  have hany : (fs.child e').any fs.isDirectory = false := by
    cases hk : fs.child e' with
    | none => rfl
    | some k => exact hold k hk
  simp only [Fs.rename, he, he', hi, hdir, hfile, hany]
  simp
  split
  all_goals rfl

/-- after a replacement, both entries that remain name the file -/
theorem rename_spec {p q : Path ν} (h : fs.rename p q = some fs') :
    ∃ e e' i, fs.entry p = some e ∧ fs.entry q = some e' ∧ fs.child e = some i ∧
      (∀ k, fs.child e' = some k → fs.isDirectory k = false) ∧ Keeps {e, e'} ∅ fs fs' ∧
      fs'.child e' = some i ∧ ∀ c ∈ ({e, e'} : Set (Ino × ν)), ∀ k, fs'.child c = some k → k = i := by
  unfold Fs.rename at h
  split at h
  case h_2 => cases h
  rename_i e e' he he'
  split at h
  · cases h
  rename_i i hi
  split at h
  · cases h
  rename_i hguard
  simp only [not_or, not_not] at hguard
  obtain ⟨hdir, _, hold⟩ := hguard
  have hold' : ∀ k, fs.child e' = some k → fs.isDirectory k = false := by
    intro k hk
    rw [hk] at hold
    simpa using hold
  refine ⟨e, e', i, he, he', hi, hold', ?_⟩
  split at h
  · rename_i hsame
    cases h
    refine ⟨Keeps.refl _ _ _, hsame, fun c hc k hk => ?_⟩
    rcases hc with rfl | rfl
    · rw [hi] at hk
      exact (Option.some.inj hk).symm
    · rw [hsame] at hk
      exact (Option.some.inj hk).symm
  · rename_i hother
    cases h
    have hdir' : (fs.link e.1 e.2 none).isDirectory e'.1 = true := by
      rw [isDirectory_link]
      exact hdir
    obtain ⟨entries, parent, hd⟩ := nodes_of_isDirectory hdir'
    have hne : e ≠ e' := by
      rintro rfl
      exact hother hi
    have hnew : ((fs.link e.1 e.2 none).link e'.1 e'.2 (some i)).child e' = some i := child_link hd _ _
    refine ⟨?_, hnew, fun c hc k hk => ?_⟩
    · exact ((keeps_link e.1 e.2 none).trans (keeps_link e'.1 e'.2 (some i))).mono
        (by rw [Set.insert_eq]) (by simp)
    · rcases hc with rfl | rfl
      · obtain ⟨entries', parent', hd'⟩ : ∃ entries' parent', fs.nodes c.1 = some (.dir entries' parent') := by
          unfold Fs.child at hi
          split at hi
          · rename_i entries' parent' hd'
            exact ⟨entries', parent', hd'⟩
          · cases hi
        rw [child_link_of_ne _ _ _ hne, child_link hd'] at hk
        cases hk
      · rw [hnew] at hk
        exact (Option.some.inj hk).symm

end

end Posix
