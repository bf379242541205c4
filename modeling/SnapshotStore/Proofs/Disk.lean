import Mathlib.Data.List.Infix
import SnapshotStore.Disk
import SnapshotStore.Proofs.OrderedMap

/-!
Walks and calls on the disk. A walk sees only what stands on its way (`walk_congr`), and one that
ends at a directory survives whatever keeps the directories (`walk_of_keepsDirectories`). For names
below a directory to which a path leads, each call either fails and leaves the disk or changes it at
the place that the names spell (`write_cases`, `rename_cases`, `removeFile_cases`,
`removeTree_cases`, `makeDirectories_cases`).
-/

namespace SnapshotStore.Disk

open OrderedMap

variable {d d' : Disk} {place root : Location} {node : DiskNode} {path dir : Path}

/-! ## Nodes -/

/-- What stands at a location. -/
def node? (d : Disk) (place : Location) : Option DiskNode := d.nodes.get? place

theorem ext_node? (h : ∀ place, d.node? place = d'.node? place) : d = d' := by
  cases d
  cases d'
  exact congrArg Disk.mk (ext_get? h)

theorem node?_set (d : Disk) (place : Location) (node : DiskNode) (q : Location) :
    (d.set place node).node? q = if place = q then some node else d.node? q :=
  get?_insert d.nodes place q node

theorem node?_erase (d : Disk) (place q : Location) :
    (d.erase place).node? q = if place = q then none else d.node? q :=
  get?_erase d.nodes place q

theorem node?_eraseTree (d : Disk) (place q : Location) :
    (d.eraseTree place).node? q = if place <+: q then none else d.node? q := by
  have filtered : (d.eraseTree place).node? q =
      if (!place.isPrefixOf q) = true then d.node? q else none := get?_filter _ _ _
  rw [filtered]
  by_cases h : place <+: q
  · rw [if_pos h, if_neg]
    simp [List.isPrefixOf_iff_prefix.2 h]
  · rw [if_neg h, if_pos]
    rw [Bool.eq_false_iff.2 fun e => h (List.isPrefixOf_iff_prefix.1 e)]
    rfl

/-- What stands on a disk stands on another as well. -/
def Within (d d' : Disk) : Prop :=
  ∀ place node, d.node? place = some node → d'.node? place = some node

theorem Within.refl (d : Disk) : Within d d := fun _ _ h => h

theorem Within.trans {d'' : Disk} (h : Within d d') (h' : Within d' d'') : Within d d'' :=
  fun place node e => h' place node (h place node e)

theorem within_eraseTree (d : Disk) (place : Location) : Within (d.eraseTree place) d := by
  intro q node h
  rw [node?_eraseTree] at h
  split at h
  · cases h
  · exact h

theorem within_set (free : d.node? place = none) (node : DiskNode) :
    Within d (d.set place node) := by
  intro q other there
  rw [node?_set, if_neg]
  · exact there
  · rintro rfl
    rw [free] at there
    cases there

theorem Within.set (within : Within d d') (there : d'.node? place = some node) :
    Within (d.set place node) d' := by
  intro q other stands
  rw [node?_set] at stands
  split at stands
  · rename_i same
    rw [← same, there, stands]
  · exact within q other stands

/-- The directories of a disk are directories of another one. -/
def KeepsDirectories (d d' : Disk) : Prop :=
  ∀ place, d.node? place = some .directory → d'.node? place = some .directory

theorem keepsDirectories_set (node : DiskNode) (h : d.node? place ≠ some .directory) :
    KeepsDirectories d (d.set place node) := by
  intro q e
  rw [node?_set, if_neg]
  · exact e
  · rintro rfl
    exact h e

theorem keepsDirectories_erase (h : d.node? place ≠ some .directory) :
    KeepsDirectories d (d.erase place) := by
  intro q e
  rw [node?_erase, if_neg]
  · exact e
  · rintro rfl
    exact h e

theorem KeepsDirectories.trans {d'' : Disk} (h : KeepsDirectories d d')
    (h' : KeepsDirectories d' d'') : KeepsDirectories d d'' :=
  fun place e => h' place (h place e)

/-- Two disks that differ at a location and below it at most. -/
def ChangesOnly (d d' : Disk) (place : Location) : Prop :=
  ∀ q, ¬place <+: q → d'.node? q = d.node? q

theorem changesOnly_refl (d : Disk) (place : Location) : ChangesOnly d d place := fun _ _ => rfl

theorem changesOnly_set (d : Disk) (place : Location) (node : DiskNode) :
    ChangesOnly d (d.set place node) place := by
  intro q apart
  rw [node?_set, if_neg]
  rintro rfl
  exact apart List.prefix_rfl

theorem changesOnly_erase (d : Disk) (place : Location) : ChangesOnly d (d.erase place) place := by
  intro q apart
  rw [node?_erase, if_neg]
  rintro rfl
  exact apart List.prefix_rfl

theorem changesOnly_eraseTree (d : Disk) (place : Location) :
    ChangesOnly d (d.eraseTree place) place := by
  intro q apart
  rw [node?_eraseTree, if_neg apart]

/-- Two disks that differ below a location at most. -/
def SameOutside (root : Location) (d d' : Disk) : Prop :=
  ∀ q, (root <+: q → q = root) → d'.node? q = d.node? q

theorem SameOutside.refl (root : Location) (d : Disk) : SameOutside root d d := fun _ _ => rfl

theorem SameOutside.trans {d'' : Disk} (h : SameOutside root d d') (h' : SameOutside root d' d'') :
    SameOutside root d d'' :=
  fun q outside => (h' q outside).trans (h q outside)

theorem ChangesOnly.sameOutside {name : String} {rest : List String}
    (h : ChangesOnly d d' (root ++ name :: rest)) : SameOutside root d d' := by
  intro q outside
  refine h q fun below => ?_
  have same := outside ((List.prefix_append root _).trans below)
  have short := below.length_le
  rw [same, List.length_append, List.length_cons] at short
  omega

/-! ## Listings -/

/-- What a listing has of a binding: its last step, if it is right below the directory. -/
theorem listed_eq_some_iff {p : Location} {entry : String × DiskNode} :
    (if p.dropLast = root then p.getLast?.map (·, node) else none) = some entry ↔
      p = root ++ [entry.1] ∧ node = entry.2 := by
  constructor
  · intro listed
    split at listed
    · rename_i above
      obtain ⟨last, ends, rfl⟩ := Option.map_eq_some_iff.1 listed
      exact ⟨by rw [← above, List.dropLast_append_getLast? last ends], rfl⟩
    · cases listed
  · rintro ⟨rfl, rfl⟩
    simp

/-- A directory lists the names that stand in it, with what they stand for. -/
theorem mem_children_iff {name : String} :
    (name, node) ∈ d.children root ↔ d.node? (root ++ [name]) = some node := by
  rw [children, List.mem_filterMap, node?, get?_eq_some_iff]
  constructor
  · rintro ⟨⟨p, other⟩, mem, listed⟩
    obtain ⟨rfl, rfl⟩ := listed_eq_some_iff.1 listed
    exact mem
  · intro mem
    exact ⟨_, mem, listed_eq_some_iff.2 ⟨rfl, rfl⟩⟩

/-- A listing has the bytes of the names that stand in the directory. -/
theorem mem_listing_iff {bytes : Bytes} :
    (bytes, node) ∈ d.listing root ↔
      ∃ name, d.node? (root ++ [name]) = some node ∧ nameBytes name = bytes := by
  rw [listing, List.mem_map]
  constructor
  · rintro ⟨⟨name, _⟩, mem, ⟨⟩⟩
    exact ⟨name, mem_children_iff.1 mem, rfl⟩
  · rintro ⟨name, stands, rfl⟩
    exact ⟨(name, node), mem_children_iff.2 stands, rfl⟩

theorem nameBytes_of_text {name : String} (plain : '\x00' ∉ name.toList) :
    nameBytes name = Utf8.encode name := by
  rw [nameBytes, if_neg fun first => plain (List.mem_of_head? first)]

theorem mem_names_children_iff {name : String} :
    name ∈ (d.children root).map Prod.fst ↔ d.node? (root ++ [name]) ≠ none := by
  rw [List.mem_map, Option.ne_none_iff_exists']
  constructor
  · rintro ⟨⟨name, node⟩, mem, rfl⟩
    exact ⟨node, mem_children_iff.1 mem⟩
  · rintro ⟨node, stands⟩
    exact ⟨(name, node), mem_children_iff.2 stands, rfl⟩

/-- A directory lists no name twice. -/
theorem nodup_names_children (d : Disk) (root : Location) :
    ((d.children root).map Prod.fst).Nodup := by
  refine List.pairwise_map.2 (List.Pairwise.filterMap _ ?_ d.nodes.sorted)
  rintro ⟨p, node⟩ ⟨p', node'⟩ below entry listed entry' listed' same
  obtain ⟨rfl, -⟩ := listed_eq_some_iff.1 listed
  obtain ⟨rfl, -⟩ := listed_eq_some_iff.1 listed'
  exact Std.lt_irrefl (same ▸ below)

/-! ## Walks -/

theorem walk_nil (d : Disk) (place : Location) (node : DiskNode) :
    d.walk place node [] = .ok (place, node) := by
  cases node <;> rfl

/-- Where one step leads from a directory. -/
def enter (d : Disk) (place : Location) (step : String) : Except DiskFault (Location × DiskNode) :=
  if Path.staysHere step then .ok (place, .directory)
  else if step = Path.above then .ok (place.dropLast, .directory)
  else if isTooLong step then .error .nameTooLong
  else
    match d.node? (place ++ [step]) with
    | none => .error .missing
    | some node => .ok (place ++ [step], node)

theorem walk_directory (d : Disk) (place : Location) (step : String) (rest : Path) :
    d.walk place .directory (step :: rest) =
      (d.enter place step).bind fun r => d.walk r.1 r.2 rest := by
  rw [walk, enter, node?]
  by_cases stays : Path.staysHere step = true
  · rw [if_pos stays, if_pos stays]
    rfl
  · rw [if_neg stays, if_neg stays]
    by_cases up : step = Path.above
    · rw [if_pos up, if_pos up]
      rfl
    · rw [if_neg up, if_neg up]
      by_cases long : isTooLong step = true
      · rw [if_pos long, if_pos long]
        rfl
      · rw [if_neg long, if_neg long]
        cases d.nodes.get? (place ++ [step]) <;> rfl

theorem walk_append (d : Disk) (place : Location) (node : DiskNode) (path more : Path) :
    d.walk place node (path ++ more) =
      (d.walk place node path).bind fun r => d.walk r.1 r.2 more := by
  induction path generalizing place node with
  | nil =>
    rw [walk_nil]
    rfl
  | cons step path ih =>
    cases node with
    | file content => rfl
    | directory =>
      rw [List.cons_append, walk_directory, walk_directory]
      cases d.enter place step with
      | error fault => rfl
      | ok r => exact ih r.1 r.2

theorem exists_of_walk_directory {step : String} {r : Location × DiskNode}
    (h : d.walk place .directory (step :: path) = .ok r) :
    ∃ q node, d.enter place step = .ok (q, node) ∧ d.walk q node path = .ok r := by
  rw [walk_directory] at h
  cases he : d.enter place step with
  | error fault =>
    rw [he] at h
    cases h
  | ok next =>
    rw [he] at h
    exact ⟨next.1, next.2, rfl, h⟩

/-- A step leads to what stands below, to the directory itself or to the one above. -/
theorem enter_mono {step : String} {q : Location} {node : DiskNode}
    (h : d.enter place step = .ok (q, node))
    (keeps : d.node? (place ++ [step]) = some node → d'.node? (place ++ [step]) = some node) :
    d'.enter place step = .ok (q, node) := by
  rw [enter] at h ⊢
  by_cases stays : Path.staysHere step = true
  · rw [if_pos stays] at h ⊢
    exact h
  · rw [if_neg stays] at h ⊢
    by_cases up : step = Path.above
    · rw [if_pos up] at h ⊢
      exact h
    · rw [if_neg up] at h ⊢
      by_cases long : isTooLong step = true
      · rw [if_pos long] at h
        cases h
      · rw [if_neg long] at h ⊢
        cases hn : d.node? (place ++ [step]) with
        | none =>
          rw [hn] at h
          cases h
        | some found =>
          rw [hn] at h
          cases h
          rw [keeps hn]

/-- A walk on a part of a disk ends as it does on the whole. -/
theorem walk_of_within (within : Within d d') {r : Location × DiskNode}
    (h : d.walk place node path = .ok r) : d'.walk place node path = .ok r := by
  induction path generalizing place node with
  | nil =>
    rw [walk_nil] at h ⊢
    exact h
  | cons step path ih =>
    cases node with
    | file content => cases h
    | directory =>
      obtain ⟨q, next, entered, onward⟩ := exists_of_walk_directory h
      rw [walk_directory, enter_mono entered (within _ next)]
      exact ih onward

/-- A walk through directories ends at the root or at a directory. -/
theorem stands_of_walk (h : d.walk place .directory path = .ok (root, .directory))
    (above : ∀ q, q <+: place → q = [] ∨ d.node? q = some .directory) :
    root = [] ∨ d.node? root = some .directory := by
  induction path generalizing place with
  | nil =>
    cases h
    exact above _ List.prefix_rfl
  | cons step path ih =>
    obtain ⟨q, next, entered, onward⟩ := exists_of_walk_directory h
    cases next with
    | file content =>
      cases path with
      | nil => cases onward
      | cons step path => cases onward
    | directory =>
      apply ih onward
      rw [enter] at entered
      split at entered
      · cases entered
        exact above
      · split at entered
        · cases entered
          exact fun q below => above q (below.trans (List.dropLast_prefix place))
        · split at entered
          · cases entered
          · cases hn : d.node? (place ++ [step]) with
            | none =>
              rw [hn] at entered
              cases entered
            | some node =>
              rw [hn] at entered
              cases entered
              intro q below
              rcases List.prefix_concat_iff.1 below with rfl | below
              · exact .inr hn
              · exact above q below

/-- A walk that ends at a directory passes directories only. -/
theorem walk_of_keepsDirectories (keeps : KeepsDirectories d d')
    (h : d.walk place .directory path = .ok (root, .directory)) :
    d'.walk place .directory path = .ok (root, .directory) := by
  induction path generalizing place with
  | nil => exact h
  | cons step path ih =>
    obtain ⟨q, next, entered, onward⟩ := exists_of_walk_directory h
    cases next with
    | file content =>
      cases path with
      | nil =>
        rw [walk_nil] at onward
        cases onward
      | cons step path => cases onward
    | directory =>
      rw [walk_directory, enter_mono entered (keeps _)]
      exact ih onward

/-! ## Names below a directory -/

/-- A step that names something in the directory where it is taken. -/
structure IsName (step : String) : Prop where
  moves : Path.staysHere step = false
  down : step ≠ Path.above

theorem enter_name {name : String} (h : IsName name) (d : Disk) (place : Location) :
    d.enter place name =
      if isTooLong name then .error .nameTooLong
      else
        match d.node? (place ++ [name]) with
        | none => .error .missing
        | some node => .ok (place ++ [name], node) := by
  rw [enter, h.moves, if_neg Bool.false_ne_true, if_neg h.down]

/-- Where names lead, and what stands there. -/
theorem of_walk_names {names : List String} (h : ∀ name ∈ names, IsName name)
    {r : Location × DiskNode} (walked : d.walk place .directory names = .ok r) :
    r.1 = place ++ names ∧ (names ≠ [] → d.node? (place ++ names) = some r.2) ∧
      ∀ name ∈ names, isTooLong name = false := by
  induction names generalizing place with
  | nil =>
    rw [walk_nil] at walked
    cases walked
    exact ⟨(List.append_nil _).symm, fun h => absurd rfl h, fun _ h => absurd h List.not_mem_nil⟩
  | cons name names ih =>
    obtain ⟨q, next, entered, onward⟩ := exists_of_walk_directory walked
    rw [enter_name (h name (List.mem_cons_self ..))] at entered
    by_cases long : isTooLong name = true
    · rw [if_pos long] at entered
      cases entered
    rw [if_neg long] at entered
    cases hn : d.node? (place ++ [name]) with
    | none =>
      rw [hn] at entered
      cases entered
    | some found =>
      rw [hn] at entered
      cases entered
      cases names with
      | nil =>
        rw [walk_nil] at onward
        cases onward
        refine ⟨rfl, fun _ => hn, ?_⟩
        intro other mem
        rw [List.mem_singleton.1 mem]
        exact Bool.eq_false_iff.2 long
      | cons second names =>
        cases next with
        | file content => cases onward
        | directory =>
          obtain ⟨spelled, stands, short⟩ :=
            ih (fun name mem => h name (List.mem_cons_of_mem _ mem)) onward
          rw [List.append_assoc, List.singleton_append] at spelled stands
          refine ⟨spelled, fun _ => stands (List.cons_ne_nil _ _), ?_⟩
          intro other mem
          rcases List.mem_cons.1 mem with rfl | mem
          · exact Bool.eq_false_iff.2 long
          · exact short other mem

/-- A walk along names sees nothing but what stands on its way. -/
theorem walk_congr {names : List String} (h : ∀ name ∈ names, IsName name)
    (same : ∀ q, q ≠ [] → q <+: names → d.node? (place ++ q) = d'.node? (place ++ q)) :
    d.walk place .directory names = d'.walk place .directory names := by
  induction names generalizing place with
  | nil => rfl
  | cons name names ih =>
    have first : d.node? (place ++ [name]) = d'.node? (place ++ [name]) :=
      same [name] (List.cons_ne_nil _ _) ⟨names, rfl⟩
    have isName := h name (List.mem_cons_self ..)
    rw [walk_directory, walk_directory, enter_name isName, enter_name isName, first]
    split
    · rfl
    · cases d'.node? (place ++ [name]) with
      | none => rfl
      | some node =>
        cases node with
        | file content => cases names <;> rfl
        | directory =>
          refine ih (fun name mem => h name (List.mem_cons_of_mem _ mem)) fun q hq below => ?_
          rw [List.append_assoc, List.singleton_append]
          exact same (name :: q) (List.cons_ne_nil _ _) (List.cons_prefix_cons.2 ⟨rfl, below⟩)

/-! ## Paths into a directory -/

/-- Whether a path leads to the directory at a location. -/
def LeadsTo (d : Disk) (dir : Path) (root : Location) : Prop :=
  d.walk [] .directory dir = .ok (root, .directory)

/-- Whether a path leads nowhere but to the directory at a location. -/
def LeadsOnlyTo (d : Disk) (dir : Path) (root : Location) : Prop :=
  ∀ r, d.walk [] .directory dir = .ok r → r = (root, .directory)

theorem LeadsTo.only (h : d.LeadsTo dir root) : d.LeadsOnlyTo dir root := by
  intro r walked
  rw [h] at walked
  exact (Except.ok.inj walked).symm

theorem LeadsTo.stands (h : d.LeadsTo dir root) : root = [] ∨ d.node? root = some .directory :=
  stands_of_walk h fun _ below => .inl (List.prefix_nil.1 below)

theorem LeadsOnlyTo.of_within (h : d'.LeadsOnlyTo dir root) (within : Within d d') :
    d.LeadsOnlyTo dir root :=
  fun r walked => h r (walk_of_within within walked)

/-- What is reached below a directory is reached through it. -/
theorem LeadsOnlyTo.of_walk (h : d.LeadsOnlyTo dir root) {names : List String}
    {r : Location × DiskNode} (walked : d.walk [] .directory (dir ++ names) = .ok r) :
    d.LeadsTo dir root ∧ d.walk root .directory names = .ok r := by
  rw [walk_append] at walked
  cases first : d.walk [] .directory dir with
  | error fault =>
    rw [first] at walked
    cases walked
  | ok next =>
    obtain rfl := h next first
    rw [first] at walked
    exact ⟨first, walked⟩

theorem LeadsTo.of_keepsDirectories (h : d.LeadsTo dir root) (keeps : KeepsDirectories d d') :
    d'.LeadsTo dir root :=
  walk_of_keepsDirectories keeps h

/-- Whether a path leads to the directory at a location whatever is below it. -/
def Reaches (d : Disk) (dir : Path) (root : Location) : Prop :=
  ∀ d', SameOutside root d d' → d'.LeadsTo dir root

theorem Reaches.leadsTo (h : d.Reaches dir root) : d.LeadsTo dir root := h d (.refl root d)

theorem Reaches.of_sameOutside (h : d.Reaches dir root) (same : SameOutside root d d') :
    d'.Reaches dir root :=
  fun d'' same' => h d'' (same.trans same')

/-- No path leads through what is below an empty directory. -/
theorem reaches_of_vacant (leads : d.LeadsTo dir root)
    (vacant : ∀ q, root <+: q → q ≠ root → d.node? q = none) : d.Reaches dir root := by
  intro d' same
  rw [LeadsTo] at leads ⊢
  generalize ([] : Location) = place at leads
  induction dir generalizing place with
  | nil => exact leads
  | cons step dir ih =>
    obtain ⟨q, next, entered, onward⟩ := exists_of_walk_directory leads
    have there : d'.enter place step = .ok (q, next) := by
      refine enter_mono entered fun stands => ?_
      rw [same (place ++ [step]) fun below => Classical.byContradiction fun other => ?_]
      · exact stands
      · rw [vacant _ below other] at stands
        cases stands
    cases next with
    | file content =>
      cases dir with
      | nil => cases onward
      | cons step dir => cases onward
    | directory =>
      rw [walk_directory, there]
      exact ih q onward

/-- A path of names leads through what is above its end only. -/
theorem reaches_of_names {names : List String} (isName : ∀ name ∈ names, IsName name)
    (leads : d.LeadsTo names root) : d.Reaches names root := by
  intro d' same
  obtain rfl : root = names := (of_walk_names isName leads).1
  rw [LeadsTo, ← walk_congr isName fun q _ above => ?_]
  · exact leads
  · exact (same q fun below => (below.eq_of_length_le above.length_le).symm).symm

/-- A path without a fault, and names that are short enough, below it. -/
structure Storable (dir : Path) (names : List String) : Prop where
  sound : Path.fault? (dir ++ names) = none
  short : ∀ name ∈ names, isTooLong name = false

theorem find_eq_walk (h : Path.fault? path = none) (named : path ≠ []) :
    d.find path = d.walk [] .directory path := by
  simp only [find, h, if_neg named]

theorem find_below (leads : d.LeadsTo dir root) {names : List String}
    (h : Path.fault? (dir ++ names) = none) (named : names ≠ []) :
    d.find (dir ++ names) = d.walk root .directory names := by
  rw [find_eq_walk h (List.append_ne_nil_of_right_ne_nil dir named), walk_append, leads]
  rfl

/-- A walk is taken only along a path that has steps and no fault. -/
theorem find_cases (d : Disk) (path : Path) :
    (∃ fault, d.find path = .error fault ∧ path.fault? = some fault) ∨
      path.fault? = none ∧ (path = [] ∧ d.find path = .error .missing ∨
        path ≠ [] ∧ d.find path = d.walk [] .directory path) := by
  rw [find]
  cases path.fault? with
  | some fault => exact .inl ⟨fault, rfl, rfl⟩
  | none =>
    refine .inr ⟨rfl, ?_⟩
    by_cases named : path = []
    · exact .inl ⟨named, if_pos named⟩
    · exact .inr ⟨named, if_neg named⟩

theorem walk_of_find {r : Location × DiskNode} (h : d.find path = .ok r) :
    Path.fault? path = none ∧ path ≠ [] ∧ d.walk [] .directory path = .ok r := by
  rcases d.find_cases path with ⟨fault, failed, -⟩ | ⟨sound, ⟨-, failed⟩ | ⟨named, found⟩⟩
  · cases failed.symm.trans h
  · cases failed.symm.trans h
  · exact ⟨sound, named, found.symm.trans h⟩

section Names

variable {names : List String} (isName : ∀ name ∈ names, IsName name)
  (only : d.LeadsOnlyTo dir root)

include isName only

theorem of_find {r : Location × DiskNode} (h : d.find (dir ++ names) = .ok r) :
    d.LeadsTo dir root ∧ Storable dir names ∧ r.1 = root ++ names ∧
      d.walk root .directory names = .ok r ∧ (names ≠ [] → d.node? (root ++ names) = some r.2) := by
  obtain ⟨sound, -, walked⟩ := walk_of_find h
  obtain ⟨leads, walked⟩ := only.of_walk walked
  obtain ⟨spelled, stands, short⟩ := of_walk_names isName walked
  exact ⟨leads, ⟨sound, short⟩, spelled, walked, stands⟩

end Names

theorem fault?_eq_none_iff {path : Path} :
    path.fault? = none ↔
      (path.any fun step => step.toList.contains '\x00') = false ∧ path.size ≤ Path.limit := by
  unfold Path.fault?
  cases path.any fun step => step.toList.contains '\x00'
  · by_cases long : Path.limit < path.size
    · simp [long]
    · simp [long, Nat.le_of_not_lt long]
  · simp

theorem size_append (path more : Path) : (path ++ more).size = path.size + more.size := by
  simp only [Path.size, ← List.sum_eq_foldl, List.map_append, List.sum_append]

theorem fault?_append_left {path more : Path} (h : Path.fault? (path ++ more) = none) :
    Path.fault? path = none := by
  rw [fault?_eq_none_iff, List.any_append, Bool.or_eq_false_iff, size_append] at h
  exact fault?_eq_none_iff.2 ⟨h.1.1, by omega⟩

/-- A path without a fault may end in a shorter name. -/
theorem fault?_of_shorter {path : Path} {name name' : String}
    (h : Path.fault? (path ++ [name]) = none) (plain : name'.toList.contains '\x00' = false)
    (short : Path.size [name'] ≤ Path.size [name]) : Path.fault? (path ++ [name']) = none := by
  rw [fault?_eq_none_iff, List.any_append, Bool.or_eq_false_iff, size_append] at h ⊢
  exact ⟨⟨h.1.1, by simpa using plain⟩, by omega⟩

/-- What is missing lies under a path without a fault. -/
theorem fault?_of_missing (h : d.find path = .error .missing) : Path.fault? path = none := by
  rcases d.find_cases path with ⟨fault, failed, unsound⟩ | ⟨sound, -⟩
  · cases failed.symm.trans h
    unfold Path.fault? at unsound
    split at unsound
    · cases unsound
    · split at unsound <;> cases unsound
  · exact sound

/-! ## Calls -/

theorem disk_of_read (d : Disk) (path : Path) : (d.call (.read path)).2 = d := by
  rw [call]
  split <;> rfl

theorem disk_of_list (d : Disk) (path : Path) : (d.call (.list path)).2 = d := by
  rw [call]
  split <;> rfl

theorem disk_of_sync (d : Disk) (path : Path) : (d.call (.sync path)).2 = d := by
  rw [call]
  split <;> rfl

/-- A walk that ends at a file ends where this file stands. -/
theorem stands_of_walk_file {content : Bytes}
    (h : d.walk place .directory path = .ok (root, .file content)) :
    d.node? root = some (.file content) := by
  induction path generalizing place with
  | nil => cases h
  | cons step path ih =>
    obtain ⟨q, next, entered, onward⟩ := exists_of_walk_directory h
    cases next with
    | directory => exact ih onward
    | file content' =>
      cases path with
      | cons step path => cases onward
      | nil =>
        cases onward
        rw [enter] at entered
        split at entered
        · cases entered
        · split at entered
          · cases entered
          · split at entered
            · cases entered
            · split at entered
              · cases entered
              · rename_i stands
                cases entered
                exact stands

theorem within_removeFile (d : Disk) (path : Path) : Within (d.call (.removeFile path)).2 d := by
  rw [call]
  split
  · exact .refl d
  · exact .refl d
  · rename_i place _ _
    intro q node stands
    rw [node?_erase] at stands
    split at stands
    · cases stands
    · exact stands

/-- Where a file can be put under a name in a directory below `root`. -/
structure Takes (d : Disk) (dir : Path) (root : Location) (front : List String) (name : String) :
    Prop where
  leads : d.LeadsTo dir root
  storable : Storable dir (front ++ [name])
  inside : d.walk root .directory front = .ok (root ++ front, .directory)
  free : d.node? (root ++ (front ++ [name])) ≠ some .directory

/-- A name that is missing from a directory is short enough, and nothing stands at it. -/
theorem of_find_missing {front : List String} {name : String} (isName : IsName name)
    (leads : d.LeadsTo dir root)
    (walked : d.walk root .directory front = .ok (root ++ front, .directory))
    (missing : d.find (dir ++ (front ++ [name])) = .error .missing) :
    isTooLong name = false ∧ d.node? (root ++ (front ++ [name])) = none := by
  rw [find_below leads (fault?_of_missing missing) (List.append_ne_nil_of_right_ne_nil _
    (List.cons_ne_nil _ _)), walk_append, walked] at missing
  change d.walk (root ++ front) .directory [name] = _ at missing
  rw [walk_directory, enter_name isName] at missing
  by_cases long : isTooLong name = true
  · rw [if_pos long] at missing
    cases missing
  rw [if_neg long, List.append_assoc] at missing
  refine ⟨Bool.eq_false_iff.2 long, ?_⟩
  cases hn : d.node? (root ++ (front ++ [name])) with
  | none => rfl
  | some node =>
    rw [hn] at missing
    change d.walk _ node [] = _ at missing
    rw [walk_nil] at missing
    cases missing

section Files

variable {front : List String} {name : String} (isName : ∀ n ∈ front ++ [name], IsName n)
  (only : d.LeadsOnlyTo dir root)

include isName only

theorem of_findPlace {place : Location} (h : d.findPlace (dir ++ (front ++ [name])) = .ok place) :
    place = root ++ (front ++ [name]) ∧ d.Takes dir root front name := by
  have isNameFront : ∀ n ∈ front, IsName n := fun n mem => isName n (List.mem_append_left _ mem)
  unfold findPlace at h
  split at h
  · rename_i place' content found
    cases h
    obtain ⟨leads, storable, spelled, walked, stands⟩ := of_find isName only found
    refine ⟨spelled, leads, storable, ?_, ?_⟩
    · rw [walk_append] at walked
      cases hf : d.walk root .directory front with
      | error fault =>
        rw [hf] at walked
        cases walked
      | ok r =>
        rw [hf] at walked
        obtain ⟨q, node⟩ := r
        obtain rfl : q = root ++ front := (of_walk_names isNameFront hf).1
        cases node with
        | file content => cases walked
        | directory => rfl
    · rw [stands (by simp)]
      exact fun e => DiskNode.noConfusion (Option.some.inj e)
  · cases h
  · rename_i missing
    split at h
    · rename_i place' name' found last
      cases h
      rw [← List.append_assoc, List.dropLast_concat] at found
      rw [← List.append_assoc, List.getLast?_concat] at last
      cases last
      obtain ⟨leads, walked⟩ := only.of_walk found
      obtain rfl : place' = root ++ front := (of_walk_names isNameFront walked).1
      obtain ⟨short, free⟩ := of_find_missing (isName name (by simp)) leads walked missing
      refine ⟨List.append_assoc _ _ _, leads, ⟨fault?_of_missing missing, ?_⟩, walked, ?_⟩
      · intro other mem
        rcases List.mem_append.1 mem with mem | mem
        · exact (of_walk_names isNameFront walked).2.2 other mem
        · rw [List.mem_singleton.1 mem]
          exact short
      · rw [free]
        rintro ⟨⟩
    · cases h
  · cases h

end Files

/-- Where a file can be put, a walk finds what stands there. -/
theorem Takes.find {front : List String} {name : String} (takes : d.Takes dir root front name)
    (isName : IsName name) :
    d.find (dir ++ (front ++ [name])) =
      match d.node? (root ++ (front ++ [name])) with
      | none => .error .missing
      | some node => .ok (root ++ (front ++ [name]), node) := by
  obtain ⟨leads, storable, inside, -⟩ := takes
  have short : isTooLong name = false := storable.short name (by simp)
  rw [find_below leads storable.sound (List.append_ne_nil_of_right_ne_nil _ (List.cons_ne_nil _ _)),
    walk_append, inside, ← List.append_assoc]
  show Disk.walk _ (root ++ front) .directory [name] = _
  rw [walk_directory, enter_name isName, short, if_neg Bool.false_ne_true]
  cases d.node? (root ++ front ++ [name]) with
  | none => rfl
  | some node => exact walk_nil d _ node

theorem Takes.findPlace {front : List String} {name : String} (takes : d.Takes dir root front name)
    (isName : IsName name) :
    d.findPlace (dir ++ (front ++ [name])) = .ok (root ++ (front ++ [name])) := by
  rw [Disk.findPlace, takes.find isName]
  cases stands : d.node? (root ++ (front ++ [name])) with
  | some node =>
    cases node with
    | file content => rfl
    | directory => exact absurd stands takes.free
  | none =>
    have parent : d.walk [] .directory (dir ++ (front ++ [name])).dropLast =
        .ok (root ++ front, .directory) := by
      rw [← List.append_assoc, List.dropLast_concat, walk_append, takes.leads]
      exact takes.inside
    have last : (dir ++ (front ++ [name])).getLast? = some name := by
      rw [← List.append_assoc, List.getLast?_concat]
    simp only [parent, last, List.append_assoc]

theorem Takes.of_keepsDirectories {front : List String} {name : String}
    (takes : d.Takes dir root front name) (keeps : KeepsDirectories d d')
    (free : d'.node? (root ++ (front ++ [name])) ≠ some .directory) :
    d'.Takes dir root front name :=
  ⟨takes.leads.of_keepsDirectories keeps, takes.storable,
    walk_of_keepsDirectories keeps takes.inside, free⟩

/-- A file is found where it was put. -/
theorem find_set {front : List String} {name : String} (isName : ∀ n ∈ front ++ [name], IsName n)
    (takes : d.Takes dir root front name) (content : Bytes) :
    (d.set (root ++ (front ++ [name])) (.file content)).find (dir ++ (front ++ [name])) =
      .ok (root ++ (front ++ [name]), .file content) := by
  have put : (d.set (root ++ (front ++ [name])) (.file content)).node?
      (root ++ (front ++ [name])) = some (.file content) := by
    rw [node?_set, if_pos rfl]
  have takes' := takes.of_keepsDirectories (keepsDirectories_set (.file content) takes.free)
    (by rw [put]; rintro ⟨⟩)
  rw [takes'.find (isName name (by simp)), put]

theorem write_of_takes {front : List String} {name : String} (takes : d.Takes dir root front name)
    (isName : IsName name) (content : Bytes) :
    d.call (.write (dir ++ (front ++ [name])) content) =
      (.ok (), d.set (root ++ (front ++ [name])) (.file content)) := by
  rw [call, takes.findPlace isName]

theorem rename_of_takes {source target : String} {content : Bytes}
    (found : d.find (dir ++ [source]) = .ok (root ++ [source], .file content))
    (takes : d.Takes dir root [] target) (isName : IsName target) :
    d.call (.rename (dir ++ [source]) (dir ++ [target])) =
      (.ok (), (d.erase (root ++ [source])).set (root ++ [target]) (.file content)) := by
  have place : d.findPlace (dir ++ [target]) = .ok (root ++ [target]) := takes.findPlace isName
  rw [call, found]
  simp only [place]

theorem endsUnnamed_name {name : String} (isName : IsName name) (path : Path) :
    Path.endsUnnamed (path ++ [name]) = false := by
  have moves := isName.moves
  simp only [Path.staysHere, Bool.or_eq_false_iff, decide_eq_false_iff_not] at moves
  have named : List.filter (· ≠ "") [name] = [name] := by simp [moves.1]
  rw [Path.endsUnnamed, List.filter_append, named, List.getLast?_concat]
  simp [moves.2, isName.down]

theorem within_removeTree (d : Disk) {name : String} (isName : IsName name) (path : Path) :
    Within (d.call (.removeTree (path ++ [name]))).2 d := by
  rw [call]
  split
  · exact .refl d
  · exact .refl d
  · rw [if_neg (by rw [endsUnnamed_name isName]; exact Bool.false_ne_true)]
    exact within_eraseTree d _

section Calls

variable (only : d.LeadsOnlyTo dir root)

include only

/-- Writing fails, or puts the file at its place. -/
theorem write_cases {front : List String} {name : String}
    (isName : ∀ n ∈ front ++ [name], IsName n) (content : Bytes) :
    (∃ fault, d.call (.write (dir ++ (front ++ [name])) content) = (.error fault, d)) ∨
      d.Takes dir root front name ∧
        d.call (.write (dir ++ (front ++ [name])) content) =
          (.ok (), d.set (root ++ (front ++ [name])) (.file content)) := by
  rw [call]
  cases hp : d.findPlace (dir ++ (front ++ [name])) with
  | error fault => exact .inl ⟨fault, rfl⟩
  | ok place =>
    obtain ⟨rfl, takes⟩ := of_findPlace isName only hp
    exact .inr ⟨takes, rfl⟩

/-- Renaming fails, or moves the file. -/
theorem rename_cases {source target : String} (isSource : IsName source)
    (isTarget : IsName target) :
    (∃ fault, d.call (.rename (dir ++ [source]) (dir ++ [target])) = (.error fault, d)) ∨
      ∃ content, d.find (dir ++ [source]) = .ok (root ++ [source], .file content) ∧
        d.Takes dir root [] target ∧
        d.call (.rename (dir ++ [source]) (dir ++ [target])) =
          (.ok (), (d.erase (root ++ [source])).set (root ++ [target]) (.file content)) := by
  rw [call]
  cases hs : d.find (dir ++ [source]) with
  | error fault => exact .inl ⟨fault, rfl⟩
  | ok r =>
    obtain ⟨place, node⟩ := r
    cases node with
    | directory => exact .inl ⟨_, rfl⟩
    | file content =>
      obtain ⟨_, _, spelled, _⟩ := of_find (by simpa using isSource) only hs
      obtain rfl : place = root ++ [source] := spelled
      simp only
      cases hp : d.findPlace (dir ++ [target]) with
      | error fault => exact .inl ⟨fault, rfl⟩
      | ok place =>
        have isName : ∀ n ∈ [] ++ [target], IsName n := by simpa using isTarget
        obtain ⟨rfl, takes⟩ := of_findPlace isName only hp
        exact .inr ⟨content, rfl, takes, rfl⟩

/-- Removing a file fails, or takes it away. -/
theorem removeFile_cases {name : String} (isName : IsName name) :
    (∃ fault, d.call (.removeFile (dir ++ [name])) = (.error fault, d)) ∨
      ∃ content, d.node? (root ++ [name]) = some (.file content) ∧
        d.call (.removeFile (dir ++ [name])) = (.ok (), d.erase (root ++ [name])) := by
  rw [call]
  cases hs : d.find (dir ++ [name]) with
  | error fault => exact .inl ⟨fault, rfl⟩
  | ok r =>
    obtain ⟨place, node⟩ := r
    cases node with
    | directory => exact .inl ⟨_, rfl⟩
    | file content =>
      obtain ⟨_, _, spelled, _, stands⟩ := of_find (by simpa using isName) only hs
      obtain rfl : place = root ++ [name] := spelled
      exact .inr ⟨content, stands (List.cons_ne_nil _ _), rfl⟩

/-- Removing a directory fails, or takes it away with all that is below it. -/
theorem removeTree_cases {name : String} (isName : IsName name) :
    (∃ fault, d.call (.removeTree (dir ++ [name])) = (.error fault, d)) ∨
      d.call (.removeTree (dir ++ [name])) = (.ok (), d.eraseTree (root ++ [name])) := by
  rw [call]
  cases hs : d.find (dir ++ [name]) with
  | error fault => exact .inl ⟨fault, rfl⟩
  | ok r =>
    obtain ⟨place, node⟩ := r
    cases node with
    | file content => exact .inl ⟨_, rfl⟩
    | directory =>
      obtain ⟨_, _, spelled, _⟩ := of_find (by simpa using isName) only hs
      obtain rfl : place = root ++ [name] := spelled
      refine .inr ?_
      simp only [endsUnnamed_name isName]
      rfl

end Calls

/-! ## Making directories -/

/-- Directories that are there are not made again. -/
theorem makeBelow_of_walk (h : d.walk place .directory path = .ok (root, .directory)) (rest : Path) :
    d.makeBelow place (path ++ rest) = d.makeBelow root rest := by
  induction path generalizing place with
  | nil =>
    cases h
    rfl
  | cons step path ih =>
    obtain ⟨q, next, entered, onward⟩ := exists_of_walk_directory h
    rw [List.cons_append, makeBelow]
    rw [enter] at entered
    by_cases stays : Path.staysHere step = true
    · rw [if_pos stays] at entered ⊢
      cases entered
      exact ih onward
    rw [if_neg stays] at entered ⊢
    by_cases up : step = Path.above
    · rw [if_pos up] at entered ⊢
      cases entered
      exact ih onward
    rw [if_neg up] at entered ⊢
    by_cases long : isTooLong step = true
    · rw [if_pos long] at entered
      cases entered
    rw [if_neg long] at entered ⊢
    cases hn : d.node? (place ++ [step]) with
    | none =>
      rw [hn] at entered
      cases entered
    | some node =>
      rw [hn] at entered
      cases entered
      rw [node?] at hn
      cases next with
      | file content =>
        cases path with
        | nil => cases onward
        | cons step path => cases onward
      | directory =>
        rw [hn]
        exact ih onward

/-- Making a directory fails, finds it there or puts it at its place. -/
theorem makeDirectories_cases (leads : d.LeadsTo dir root) {name : String} (isName : IsName name) :
    (∃ fault, d.call (.makeDirectories (dir ++ [name])) = (.error fault, d)) ∨
      Path.fault? (dir ++ [name]) = none ∧
        (d.node? (root ++ [name]) = some .directory ∧
            d.call (.makeDirectories (dir ++ [name])) = (.ok (), d) ∨
          d.node? (root ++ [name]) = none ∧
            d.call (.makeDirectories (dir ++ [name])) =
              (.ok (), d.set (root ++ [name]) .directory)) := by
  rw [call]
  cases hf : Path.fault? (dir ++ [name]) with
  | some fault => exact .inl ⟨fault, rfl⟩
  | none =>
    simp only
    rw [makeBelow_of_walk leads, makeBelow, isName.moves, if_neg Bool.false_ne_true,
      if_neg isName.down]
    by_cases long : isTooLong name = true
    · rw [if_pos long]
      exact .inl ⟨_, rfl⟩
    rw [if_neg long]
    cases hn : d.nodes.get? (root ++ [name]) with
    | none => exact .inr ⟨trivial, .inr ⟨hn, rfl⟩⟩
    | some node =>
      cases node with
      | file content => exact .inl ⟨_, rfl⟩
      | directory => exact .inr ⟨trivial, .inl ⟨hn, rfl⟩⟩

/-- A walk along steps that lead nowhere. -/
theorem walk_of_staysHere (h : path.all Path.staysHere = true) :
    d.walk place .directory path = .ok (place, .directory) := by
  induction path with
  | nil => rfl
  | cons step path ih =>
    rw [List.all_cons, Bool.and_eq_true] at h
    rw [walk, if_pos h.1]
    exact ih h.2

/-- Making directories takes nothing away. -/
theorem within_makeBelow (d : Disk) (place : Location) (path : Path) :
    Within d (d.makeBelow place path).2 := by
  induction path generalizing d place with
  | nil => exact .refl d
  | cons step path ih =>
    rw [makeBelow]
    split
    · exact ih d place
    split
    · exact ih d place.dropLast
    split
    · exact .refl d
    split
    · exact ih d (place ++ [step])
    · exact .refl d
    · rename_i free
      split
      · exact .refl d
      · exact (within_set free .directory).trans (ih _ _)

/-- Of a path that led to a directory before something was taken away, the directories are made
again that are gone, and nothing else. -/
theorem makeBelow_of_within {whole : Disk}
    (h : whole.walk place .directory path = .ok (root, .directory)) (within : Within d whole)
    (stands : root = [] ∨ d.node? root = some .directory) :
    ∃ d', d.makeBelow place path = (.ok (), d') ∧ Within d' whole ∧
      d'.walk place .directory path = .ok (root, .directory) := by
  induction path generalizing place d with
  | nil => exact ⟨d, rfl, within, h⟩
  | cons step path ih =>
    obtain ⟨q, next, entered, onward⟩ := exists_of_walk_directory h
    cases next with
    | file content => cases path <;> cases onward
    | directory =>
      -- What is left of the path is made from where the step leads.
      have goOn : ∀ d₁ : Disk, Within d₁ whole → (root = [] ∨ d₁.node? root = some .directory) →
          (∀ d', Within d₁ d' → d'.enter place step = .ok (q, .directory)) →
          ∃ d', d₁.makeBelow q path = (.ok (), d') ∧ Within d' whole ∧
            d'.walk place .directory (step :: path) = .ok (root, .directory) := by
        intro d₁ within stands enters
        obtain ⟨d', made, upper, walked⟩ := ih onward within stands
        have lower := within_makeBelow d₁ q path
        rw [made] at lower
        refine ⟨d', made, upper, ?_⟩
        rw [walk_directory, enters d' lower]
        exact walked
      rw [enter] at entered
      rw [makeBelow]
      by_cases stays : Path.staysHere step = true
      · rw [if_pos stays] at entered ⊢
        cases entered
        exact goOn d within stands fun d' _ => by rw [enter, if_pos stays]
      rw [if_neg stays] at entered ⊢
      by_cases up : step = Path.above
      · rw [if_pos up] at entered ⊢
        cases entered
        exact goOn d within stands fun d' _ => by rw [enter, if_neg stays, if_pos up]
      rw [if_neg up] at entered ⊢
      by_cases long : isTooLong step = true
      · rw [if_pos long] at entered
        cases entered
      rw [if_neg long] at entered ⊢
      have enters : ∀ d₁ : Disk, d₁.node? (place ++ [step]) = some .directory →
          ∀ d', Within d₁ d' → d'.enter place step = .ok (place ++ [step], .directory) := by
        intro d₁ there d' lower
        rw [enter, if_neg stays, if_neg up, if_neg long, lower _ _ there]
      cases hw : whole.node? (place ++ [step]) with
      | none =>
        rw [hw] at entered
        cases entered
      | some node =>
        rw [hw] at entered
        cases entered
        cases hn : d.nodes.get? (place ++ [step]) with
        | some node =>
          have same : node = .directory := by
            have there := within _ _ hn
            rw [hw] at there
            exact (Option.some.inj there).symm
          subst same
          exact goOn d within stands (enters d hn)
        | none =>
          have goesOn : ¬(path.all Path.staysHere = true ∧ path.contains "." = true) := by
            rintro ⟨all, _⟩
            rw [walk_of_staysHere all] at onward
            cases onward
            rcases stands with nowhere | there
            · exact absurd nowhere (by simp)
            · rw [node?, hn] at there
              cases there
          have stands' : root = [] ∨
              (d.set (place ++ [step]) .directory).node? root = some .directory := by
            refine stands.imp_right fun there => ?_
            rw [node?_set, there, ite_self]
          simp only [if_neg goesOn]
          exact goOn _ (within.set hw) stands' (enters _ (by rw [node?_set, if_pos rfl]))

theorem within_makeDirectories (d : Disk) (dir : Path) :
    Within d (d.call (.makeDirectories dir)).2 := by
  rw [call]
  cases Path.fault? dir with
  | some fault => exact .refl d
  | none => exact within_makeBelow d [] dir

/-- A directory that is there is not made again. -/
theorem makeDirectories_of_leadsTo (leads : d.LeadsTo dir root)
    (sound : Path.fault? dir = none) : d.call (.makeDirectories dir) = (.ok (), d) := by
  have made := makeBelow_of_walk leads []
  rw [List.append_nil] at made
  rw [call, sound]
  exact made

theorem makeDirectories_of_within {whole : Disk} (leads : whole.LeadsTo dir root)
    (within : Within d whole) (stands : root = [] ∨ d.node? root = some .directory)
    (sound : Path.fault? dir = none) :
    ∃ d', d.call (.makeDirectories dir) = (.ok (), d') ∧ Within d' whole ∧ d'.LeadsTo dir root := by
  rw [call, sound]
  exact makeBelow_of_within leads within stands

end SnapshotStore.Disk
