import TableSchema.Host.FileTree

/-!
# Files of a directory

The files of a directory are side by side: wherever the path of the directory leads, the paths of
its files lead there and one name further, so that files with different names are never one. Writing
one of them replaces what the file held and nothing else, and no directory goes away.

Making directories puts directories where there was nothing, and changes nothing else.
-/

namespace TableSchema

/-- A sequence comes to something if both of its parts do. -/
theorem bind_eq_ok_iff {ε α β : Type} {x : Except ε α} {f : α → Except ε β} {b : β} :
    x.bind f = .ok b ↔ ∃ a, x = .ok a ∧ f a = .ok b := by
  cases x <;> simp [Except.bind]

end TableSchema

namespace TableSchema.Host

/-- A name that leads one step down. -/
structure IsPlain (name : String) : Prop where
  isHere_eq : FileTree.isHere name = false
  ne_parent : name ≠ ".."
  no_slash : '/' ∉ name.toList

theorem IsPlain.ne_empty {name : String} (h : IsPlain name) : name ≠ "" := by
  rintro rfl
  exact absurd h.isHere_eq (by decide)

theorem IsPlain.ne_here {name : String} (h : IsPlain name) : name ≠ "." := by
  rintro rfl
  exact absurd h.isHere_eq (by decide)

namespace FileTree

variable {t t' t'' : FileTree} {cwd l place : Location} {name directory path : String}

/-! ## What stays -/

/-- Whether a location holds what it held, where a directory may have been made out of nothing. -/
def KeptAt (t t' : FileTree) (l : Location) : Prop :=
  t'.at? l = t.at? l ∨ t.at? l = none ∧ t'.at? l = some .directory

theorem KeptAt.refl (t : FileTree) (l : Location) : KeptAt t t l := .inl rfl

/-- What is kept twice is kept. -/
theorem KeptAt.trans (h : KeptAt t t' l) (h' : KeptAt t' t'' l) : KeptAt t t'' l := by
  rw [KeptAt] at *
  rcases h with h | ⟨hnone, hdir⟩ <;> rcases h' with h' | ⟨hnone', hdir'⟩
  · exact .inl (h'.trans h)
  · exact .inr ⟨h ▸ hnone', hdir'⟩
  · exact .inr ⟨hnone, h'.trans hdir⟩
  · exact .inr ⟨hnone, hdir'⟩

/-- Whether every directory stays. -/
def KeepsDirectories (t t' : FileTree) : Prop :=
  ∀ l, t.at? l = some .directory → t'.at? l = some .directory

/-- Putting something where no directory is keeps all directories. -/
theorem keepsDirectories_set {e : Entry} (h : t.at? l ≠ some .directory) :
    KeepsDirectories t (t.set l e) := by
  intro l' hl'
  have hne : l' ≠ l := by
    rintro rfl
    exact h hl'
  rw [at?_set_of_ne t e hne, hl']

/-! ## Following names -/

/-- Where a name leads from a directory. -/
def enter (l : Location) (name : String) : Except FileFault Location :=
  if isHere name then .ok l
  else if name = ".." then .ok l.dropLast
  else if isTooLong name then .error .nameTooLong
  else .ok (l ++ [name])

/-- The first name leads on from a directory, and from nothing else. -/
theorem follow_cons (t : FileTree) (l : Location) (name : String) (rest : List String) :
    t.follow l (name :: rest) =
      match t.at? l with
      | some .directory => (enter l name).bind fun l' => t.follow l' rest
      | some _ => .error .notDirectory
      | none => .error .notFound := by
  rw [follow]
  rcases t.at? l with _ | _ | _ | _ | _ <;> try rfl
  simp only [enter]
  repeat' split
  all_goals rfl

/-- Names are followed one after the other. -/
theorem follow_append (t : FileTree) (l : Location) (as bs : List String) :
    t.follow l (as ++ bs) = (t.follow l as).bind fun p => t.follow p.1 bs := by
  induction as generalizing l with
  | nil => rfl
  | cons name as ih =>
    rw [List.cons_append, follow_cons, follow_cons]
    rcases t.at? l with _ | _ | _ | _ | _ <;> try rfl
    cases enter l name with
    | error fault => rfl
    | ok l' => exact ih l'

/-- Names lead from directory to directory. -/
theorem follow_cons_eq_ok_iff {rest : List String} {r : Location × Option Entry} :
    t.follow l (name :: rest) = .ok r ↔
      t.at? l = some .directory ∧ ∃ l', enter l name = .ok l' ∧ t.follow l' rest = .ok r := by
  rw [follow_cons]
  rcases t.at? l with _ | _ | _ | _ | _ <;> simp [bind_eq_ok_iff]

/-- Where names lead, stands what they are said to lead to. -/
theorem at?_of_follow {names : List String} {r : Location × Option Entry}
    (h : t.follow l names = .ok r) : r.2 = t.at? r.1 := by
  induction names generalizing l with
  | nil =>
    cases h
    rfl
  | cons name names ih =>
    obtain ⟨-, l', -, hrest⟩ := follow_cons_eq_ok_iff.mp h
    exact ih hrest

/-- Where directories stay, names lead to the same directory. -/
theorem KeepsDirectories.follow (h : KeepsDirectories t t') {names : List String}
    (ht : t.follow l names = .ok (place, some .directory)) :
    t'.follow l names = .ok (place, some .directory) := by
  induction names generalizing l with
  | nil =>
    obtain ⟨rfl, hl⟩ : l = place ∧ t.at? l = some .directory := by simpa [FileTree.follow] using ht
    rw [FileTree.follow, h l hl]
  | cons name names ih =>
    obtain ⟨hl, l', henter, hrest⟩ := follow_cons_eq_ok_iff.mp ht
    exact follow_cons_eq_ok_iff.mpr ⟨h l hl, l', henter, ih hrest⟩

/-! ## Paths of files -/

/-- Where the names of a path start. -/
def startOf (cwd : Location) (path : String) : Location :=
  if path.toList.head? = some '/' then [] else cwd

/-- The names that the paths of the files of a directory have before the last. -/
def directoryNames (directory : String) : List String :=
  if directory = "" then []
  else if directory.toList.getLast? = some '/' then (names directory).dropLast
  else names directory

/-- A name behind a slash is the last name of a path. -/
theorem names_append (directory : String) (h : '/' ∉ name.toList) :
    names (directory ++ "/" ++ name) = names directory ++ [name] := by
  simp [names, Text.splitString, Text.split_append_cons, Text.split_of_not_mem h]

/-- A slash at the end makes one more name, which is empty. -/
theorem exists_names_of_slash (h : directory.toList.getLast? = some '/') :
    ∃ front, directory = front ++ "/" ∧ names directory = names front ++ [""] := by
  obtain ⟨front, hfront⟩ := List.getLast?_eq_some_iff.mp h
  have hdirectory : directory = String.ofList front ++ "/" := by
    rw [← String.toList_inj, hfront]
    simp
  have hnames : names (String.ofList front ++ "/" ++ "") = names (String.ofList front) ++ [""] :=
    names_append _ (by simp)
  rw [String.append_empty, ← hdirectory] at hnames
  exact ⟨String.ofList front, hdirectory, hnames⟩

/-- The path of a file has the names of its directory and its own. -/
theorem names_joinPath (directory : String) (h : '/' ∉ name.toList) :
    names (joinPath directory name) = directoryNames directory ++ [name] := by
  rw [joinPath, directoryNames]
  by_cases hempty : directory = ""
  · simp [hempty, names, Text.splitString, Text.split_of_not_mem h]
  · by_cases hlast : directory.toList.getLast? = some '/'
    · -- the file stands in for the empty name
      obtain ⟨front, hfront, hnames⟩ := exists_names_of_slash hlast
      rw [if_pos (by simp [hlast]), if_neg hempty, if_pos hlast, hnames, List.dropLast_concat,
        hfront, names_append _ h]
    · rw [if_neg (by simp [hempty, hlast]), if_neg hempty, if_neg hlast, names_append _ h]

/-- The path of a file starts at the root where that of its directory does. -/
theorem head?_joinPath (directory : String) (h : '/' ∉ name.toList) :
    (joinPath directory name).toList.head? = some '/' ↔ directory.toList.head? = some '/' := by
  by_cases hempty : directory = ""
  · subst hempty
    have hhead : name.toList.head? ≠ some '/' := fun hname => h (List.mem_of_head? hname)
    simp [joinPath, hhead]
  · obtain ⟨c, cs, hcs⟩ : ∃ c cs, directory.toList = c :: cs :=
      List.exists_cons_of_ne_nil (by simpa using hempty)
    rw [joinPath]
    split <;> simp [hcs]

/-- The path of a file starts where that of its directory does. -/
theorem startOf_joinPath (cwd : Location) (directory : String) (h : '/' ∉ name.toList) :
    startOf cwd (joinPath directory name) = startOf cwd directory := by
  simp only [startOf, head?_joinPath directory h]

/-- Whether the path of a directory leads to a place. -/
def DirectoryAt (t : FileTree) (cwd : Location) (directory : String) (place : Location) : Prop :=
  t.follow (startOf cwd directory) (directoryNames directory) = .ok (place, some .directory)

/-- A path leads to one place only. -/
theorem DirectoryAt.unique {place' : Location} (h : DirectoryAt t cwd directory place)
    (h' : DirectoryAt t cwd directory place') : place = place' := by
  rw [DirectoryAt] at h h'
  simp_all

/-- Where directories stay, a path leads to the same place. -/
theorem DirectoryAt.mono (h : DirectoryAt t cwd directory place) (hkeep : KeepsDirectories t t') :
    DirectoryAt t' cwd directory place :=
  hkeep.follow h

/-- A plain name leads one step down, unless it is too long. -/
theorem enter_eq_ok_iff (h : IsPlain name) {l l' : Location} :
    enter l name = .ok l' ↔ isTooLong name = false ∧ l' = l ++ [name] := by
  rw [enter, if_neg (by simp [h.isHere_eq]), if_neg h.ne_parent]
  cases isTooLong name <;> simp [eq_comm]

/-- A plain name leads from a directory to what stands there under the name. -/
theorem follow_file_eq_ok_iff (h : IsPlain name) {r : Location × Option Entry} :
    t.follow l [name] = .ok r ↔
      t.at? l = some .directory ∧ isTooLong name = false ∧
        r = (l ++ [name], t.at? (l ++ [name])) := by
  rw [follow_cons_eq_ok_iff]
  refine ⟨?_, ?_⟩
  · rintro ⟨hdir, l', henter, hr⟩
    obtain ⟨hshort, rfl⟩ := (enter_eq_ok_iff h).mp henter
    exact ⟨hdir, hshort, (Except.ok.inj hr).symm⟩
  · rintro ⟨hdir, hshort, rfl⟩
    exact ⟨hdir, _, (enter_eq_ok_iff h).mpr ⟨hshort, rfl⟩, rfl⟩

theorem joinPath_ne_empty (directory : String) (h : name ≠ "") : joinPath directory name ≠ "" := by
  rw [joinPath]
  split <;> simp [h]

/-- Different names make different paths. -/
theorem joinPath_injective (directory : String) : Function.Injective (joinPath directory) := by
  intro name name' h
  rw [joinPath, joinPath] at h
  split at h <;> simpa [← String.toList_inj] using h

/-- Whether a path leads to a location, be there something or not. -/
def LeadsTo (t : FileTree) (cwd : Location) (path : String) (l : Location) : Prop :=
  ∃ e, t.locate cwd path = .ok (l, e)

/-- Where a path leads, stands what it is said to lead to. -/
theorem at?_of_locate {r : Location × Option Entry} (h : t.locate cwd path = .ok r) :
    r.2 = t.at? r.1 := by
  rw [locate] at h
  repeat' split at h
  all_goals first | cases h | exact at?_of_follow h

/-- A path leads to a location with what stands there. -/
theorem leadsTo_iff_locate : LeadsTo t cwd path l ↔ t.locate cwd path = .ok (l, t.at? l) := by
  refine ⟨?_, fun h => ⟨_, h⟩⟩
  rintro ⟨e, h⟩
  rwa [← at?_of_locate h]

/-- The path of a file leads on from where the path of its directory leads. -/
theorem leadsTo_joinPath_iff (h : IsPlain name) :
    LeadsTo t cwd (joinPath directory name) l ↔
      pathFault? (joinPath directory name) = none ∧ isTooLong name = false ∧
        ∃ place, DirectoryAt t cwd directory place ∧ l = place ++ [name] := by
  -- the names but the last lead to the place, and the place has to be a directory for the last
  have hfollow : t.follow (startOf cwd (joinPath directory name))
      (names (joinPath directory name)) = .ok (l, t.at? l) ↔ isTooLong name = false ∧
        ∃ place, DirectoryAt t cwd directory place ∧ l = place ++ [name] := by
    rw [startOf_joinPath cwd directory h.no_slash, names_joinPath directory h.no_slash,
      follow_append, bind_eq_ok_iff]
    refine ⟨?_, ?_⟩
    · rintro ⟨⟨place, e⟩, hplace, hfile⟩
      obtain ⟨hdir, hshort, hl⟩ := (follow_file_eq_ok_iff h).mp hfile
      obtain rfl : e = some .directory := (at?_of_follow hplace).trans hdir
      exact ⟨hshort, place, hplace, congrArg Prod.fst hl⟩
    · rintro ⟨hshort, place, hplace, rfl⟩
      exact ⟨_, hplace, (follow_file_eq_ok_iff h).mpr
        ⟨(at?_of_follow hplace).symm, hshort, rfl⟩⟩
  rw [leadsTo_iff_locate, locate, if_neg (joinPath_ne_empty directory h.ne_empty)]
  cases pathFault? (joinPath directory name) with
  | some fault => simp
  | none => exact hfollow.trans (by simp)

/-- Where directories stay, a path leads to the same file. -/
theorem LeadsTo.mono (h : IsPlain name) (hkeep : KeepsDirectories t t')
    (hl : LeadsTo t cwd (joinPath directory name) l) :
    LeadsTo t' cwd (joinPath directory name) l := by
  obtain ⟨hpath, hshort, place, hplace, rfl⟩ := (leadsTo_joinPath_iff h).mp hl
  exact (leadsTo_joinPath_iff h).mpr ⟨hpath, hshort, place, hplace.mono hkeep, rfl⟩

/-- Different files of a directory are at different locations. -/
theorem LeadsTo.name_eq {name' : String} (h : IsPlain name) (h' : IsPlain name')
    (hl : LeadsTo t cwd (joinPath directory name) l)
    (hl' : LeadsTo t cwd (joinPath directory name') l) : name = name' := by
  obtain ⟨-, -, place, hplace, rfl⟩ := (leadsTo_joinPath_iff h).mp hl
  obtain ⟨-, -, place', hplace', heq⟩ := (leadsTo_joinPath_iff h').mp hl'
  obtain rfl := hplace.unique hplace'
  simpa using heq

/-- A text is read where a path leads to it. -/
theorem readText_eq_ok_iff {content : String} :
    t.readText cwd path = .ok content ↔
      ∃ l, LeadsTo t cwd path l ∧ t.at? l = some (.text content) := by
  rw [readText]
  refine ⟨fun h => ?_, ?_⟩
  · obtain ⟨⟨l, e⟩, hlocate, hread⟩ := bind_eq_ok_iff.mp h
    refine ⟨l, ⟨e, hlocate⟩, at?_of_locate hlocate ▸ ?_⟩
    rcases e with _ | _ | _ | _ | _ <;> cases hread
    rfl
  · rintro ⟨l, hleads, hat⟩
    rw [leadsTo_iff_locate.mp hleads, hat]
    rfl

/-! ## Writing -/

/-- What is put into a file replaces what is where the path leads, unless that is a directory. -/
theorem exists_set_of_overwrite {e : Entry} (h : t.overwrite cwd path e = .ok t') :
    ∃ l, LeadsTo t cwd path l ∧ t.at? l ≠ some .directory ∧ t' = t.set l e := by
  obtain ⟨⟨l, old⟩, hlocate, hset⟩ := bind_eq_ok_iff.mp h
  refine ⟨l, ⟨old, hlocate⟩, at?_of_locate hlocate ▸ ?_⟩
  rcases old with _ | _ | _ | _ | _ <;> cases hset <;> simp

/-- A file that was overwritten holds what was put into it, and everything else what it held. -/
theorem at?_of_overwrite {e : Entry} (h : IsPlain name)
    (hw : t.overwrite cwd (joinPath directory name) e = .ok t') :
    KeepsDirectories t t' ∧ (∃ l, LeadsTo t' cwd (joinPath directory name) l ∧ t'.at? l = some e) ∧
      ∀ l, ¬ LeadsTo t' cwd (joinPath directory name) l → t'.at? l = t.at? l := by
  obtain ⟨l, hleads, hfile, rfl⟩ := exists_set_of_overwrite hw
  have hkeep : KeepsDirectories t (t.set l e) := keepsDirectories_set hfile
  have hleads' := hleads.mono h hkeep
  refine ⟨hkeep, ⟨l, hleads', ?_⟩, fun l' hl' => ?_⟩
  · have hne : l ≠ [] := by
      obtain ⟨-, -, place, -, rfl⟩ := (leadsTo_joinPath_iff h).mp hleads
      simp
    exact at?_set_self t e hne
  · have hne : l' ≠ l := by
      rintro rfl
      exact hl' hleads'
    exact at?_set_of_ne t e hne

/-- A file that was overwritten leaves the texts of the others. -/
theorem readText_of_overwrite_of_ne {name' text : String} {e : Entry} (h : IsPlain name)
    (h' : IsPlain name') (hne : name' ≠ name)
    (hw : t.overwrite cwd (joinPath directory name) e = .ok t')
    (hread : t.readText cwd (joinPath directory name') = .ok text) :
    t'.readText cwd (joinPath directory name') = .ok text := by
  obtain ⟨hkeep, -, hother⟩ := at?_of_overwrite h hw
  obtain ⟨l, hleads, hat⟩ := readText_eq_ok_iff.mp hread
  have hleads' := hleads.mono h' hkeep
  refine readText_eq_ok_iff.mpr ⟨l, hleads', ?_⟩
  rw [hother l fun hl => hne (hleads'.name_eq h' h hl), hat]

/-! ## Making directories -/

/-- A directory is made only where there is nothing. -/
theorem exists_set_of_makeDirectory {names : List String}
    (h : t.makeDirectory l names = .ok t') :
    ∃ place last, t.at? (place ++ [last]) = none ∧ t' = t.set (place ++ [last]) .directory := by
  rw [makeDirectory] at h
  split at h
  · cases h
  next last before _ =>
    obtain ⟨⟨place, e⟩, -, hset⟩ := bind_eq_ok_iff.mp h
    rcases e with _ | _ | _ | _ | _ <;> try cases hset
    -- of the four cases only the last makes something
    simp only at hset
    repeat' split at hset
    all_goals cases hset
    next hfree => exact ⟨place, last, by simpa using hfree, rfl⟩

/-- Making one directory changes nothing else. -/
theorem keptAt_of_makeDirectory {names : List String} (h : t.makeDirectory l names = .ok t')
    (l' : Location) : KeptAt t t' l' := by
  obtain ⟨place, last, hfree, rfl⟩ := exists_set_of_makeDirectory h
  by_cases hl' : l' = place ++ [last]
  · subst hl'
    exact .inr ⟨hfree, at?_set_self t _ (by simp)⟩
  · exact .inl (at?_set_of_ne t _ hl')

/-- Making directories puts directories where there was nothing, even if it fails. -/
theorem keptAt_makeDirectories (t : FileTree) (l : Location) (staying reversed : List String)
    (l' : Location) : KeptAt t (t.makeDirectories l staying reversed).1 l' := by
  -- the last name stands first, so the induction goes up to the directories before it
  induction reversed generalizing t staying with
  | nil => exact .refl t l'
  | cons name rest ih =>
    rw [makeDirectories]
    split
    next hmade => exact keptAt_of_makeDirectory hmade l'
    · have hbefore := ih t []
      split
      next hstop => simpa [hstop] using hbefore
      next t₁ hdone =>
        rw [hdone] at hbefore
        split
        next hmade => exact hbefore.trans (keptAt_of_makeDirectory hmade l')
        · exact hbefore
    · exact .refl t l'

/-- Making a directory at a path puts directories where there was nothing, even if it fails. -/
theorem keptAt_createDirectories (t : FileTree) (cwd : Location) (path : String) (l : Location) :
    KeptAt t (t.createDirectories cwd path).1 l := by
  rw [createDirectories]
  split
  · exact .refl t l
  · exact keptAt_makeDirectories ..

/-- So do the directories on the way. -/
theorem keptAt_createFirst (t : FileTree) (cwd : Location) (path : String) (count : Nat)
    (l : Location) : KeptAt t (t.createFirst cwd path count).1 l := by
  rw [createFirst]
  split
  · exact .refl t l
  · exact keptAt_makeDirectories ..

end FileTree

end TableSchema.Host
