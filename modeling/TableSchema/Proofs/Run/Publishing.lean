import TableSchema.Host.World
import TableSchema.Proofs.Schema.Generator
import TableSchema.Run.Publishing

/-!
# What publishing does to files

Files are written one after the other, and each is a step from a world to the next. What holds of
the files that are written so far (`Written`) is kept by every step that succeeds, so that it holds
after a whole run. The first step that fails ends the run. It leaves the other files as they are,
but its own, which may be the file of an earlier step, may break off anywhere (`Torn`).

Everything that can fail without the files is settled before the first of them is looked at.
-/

namespace TableSchema.Run

open Catalog Host Host.FileTree Schema

variable {directory path : String} {done files : List (String × String)} {w₀ w w' w'' : World}

/-! ## What files need of a world -/

/-- Whether two worlds are the same but for the files, what can still go wrong with them and the
log. -/
def SameBeside (w w' : World) : Prop :=
  w' = { w with files := w'.files, mishaps := w'.mishaps, log := w'.log }

theorem SameBeside.refl (w : World) : SameBeside w w := rfl

theorem SameBeside.trans (h : SameBeside w w') (h' : SameBeside w' w'') : SameBeside w w'' := by
  rw [SameBeside] at *
  rw [h', h]

theorem SameBeside.directory_eq (h : SameBeside w w') : w'.directory = w.directory := by rw [h]

theorem SameBeside.output_eq (h : SameBeside w w') : w'.output = w.output := by rw [h]

/-- Making a directory at a path puts directories where there was nothing, even if it fails. -/
theorem keptAt_world_createDirectories (w : World) (path : String) (l : Location) :
    KeptAt w.files (w.createDirectories path).2.files l := by
  rw [World.createDirectories]
  split
  · exact keptAt_createDirectories w.files w.directory path l
  · exact keptAt_createFirst w.files w.directory path _ l

/-- Making directories changes the tree and the mishaps left, and is not announced. -/
theorem sameBeside_createDirectories (w : World) (path : String) :
    SameBeside w (w.createDirectories path).2 ∧ (w.createDirectories path).2.log = w.log := by
  rw [World.createDirectories]
  split <;> exact ⟨rfl, rfl⟩

/-- What a step that writes a text into a file can do to the files. -/
inductive WriteStep (cwd : Location) (path text : String) (t : FileTree) :
    Except FileFault Unit → FileTree → Prop
  /-- the file takes the text -/
  | taken {t' : FileTree} (file : t.overwrite cwd path (.text text) = .ok t') :
      WriteStep cwd path text t (.ok ()) t'
  /-- the file is not opened -/
  | untouched {fault : FileFault} : WriteStep cwd path text t (.error fault) t
  /-- the file takes the first bytes of the text -/
  | broken {fault : FileFault} {count : Nat} {t' : FileTree}
      (file : t.overwrite cwd path (.start text count) = .ok t') :
      WriteStep cwd path text t (.error fault) t'

/-- Writing a text is a step, and changes nothing beside. -/
theorem writeStep_of_writeText {text : String} {result : Except FileFault Unit}
    (h : w.writeText path text = (result, w')) :
    WriteStep w.directory path text w.files result w'.files ∧ SameBeside w w' ∧ w'.log = w.log := by
  -- whatever is left in the file, the same holds of the rest of the world
  have hleave : ∀ {e result' next}, next = { w with mishaps := w.mishaps.tail } →
      next.leave path e result' = (result, w') →
      (w.files.overwrite w.directory path e = .ok w'.files ∧ result = result' ∨
        w'.files = w.files ∧ ∃ fault, result = .error fault) ∧
        SameBeside w w' ∧ w'.log = w.log := by
    rintro e result' next rfl h
    rw [World.leave] at h
    cases hfile : w.files.overwrite w.directory path e <;> rw [hfile] at h <;> cases h
    · exact ⟨.inr ⟨rfl, _, rfl⟩, rfl, rfl⟩
    · exact ⟨.inl ⟨rfl, rfl⟩, rfl, rfl⟩
  rw [World.writeText] at h
  split at h
  · obtain ⟨⟨hfile, rfl⟩ | ⟨hsame, fault, rfl⟩, hrest⟩ := hleave rfl h
    · exact ⟨.taken hfile, hrest⟩
    · exact ⟨hsame ▸ .untouched, hrest⟩
  · obtain ⟨⟨hfile, rfl⟩ | ⟨hsame, fault, rfl⟩, hrest⟩ := hleave rfl h
    · exact ⟨.broken hfile, hrest⟩
    · exact ⟨hsame ▸ .untouched, hrest⟩
  · cases h
    exact ⟨.untouched, rfl, rfl⟩

/-! ## One file -/

/-- The message that a file is about to be written. -/
def announcement (path : String) : Message := ⟨.info, s!"Writing to {path}"⟩

/-- The world after that message. -/
def announced (w : World) (path : String) : World := { w with log := w.log ++ [announcement path] }

theorem sameBeside_announced (w : World) (path : String) : SameBeside w (announced w path) := rfl

/-- A file is announced, and then its text is written. -/
theorem run_writeFile (w : World) (directory name text : String) :
    w.run (writeFile directory name text) =
      match (announced w (joinPath directory name)).writeText (joinPath directory name) text with
      | (.ok (), w') => (.ok (joinPath directory name), w')
      | (.error fault, w') => (.error (.io fault.message), w') := by
  rw [writeFile, World.run_bind, World.run_log]
  change (announced w (joinPath directory name)).run _ = _
  rw [World.run_bind, World.run_attempt_writeText]
  rcases (announced w (joinPath directory name)).writeText (joinPath directory name) text with
    ⟨_ | _, w'⟩ <;> rfl

/-! ## Several files -/

/-- Of a world after some files of a directory are written: each path leads to the text that was
written there last, and what no path leads to is kept. -/
structure Written (directory : String) (files : List (String × String)) (w w' : World) : Prop where
  /-- the last text for a name is in its file -/
  holds : ∀ front name text back, files = front ++ (name, text) :: back →
    name ∉ back.map Prod.fst →
      w'.files.readText w.directory (joinPath directory name) = .ok text
  /-- all other files are as before -/
  kept : ∀ l, (∀ f ∈ files, ¬ LeadsTo w'.files w.directory (joinPath directory f.1) l) →
    KeptAt w.files w'.files l
  /-- nothing else changes, but for what can still go wrong and the log -/
  rest : SameBeside w w'

/-- Of a world after some files of a directory are written and one more is not: each other path
leads to the text that was written there last, the path of that one may lead to the beginning of its
text, and what no path leads to is kept. -/
structure Torn (directory : String) (files : List (String × String)) (file : String × String)
    (w w' : World) : Prop where
  /-- the last text for any other name is in its file -/
  holds : ∀ front name text back, files = front ++ (name, text) :: back →
    name ∉ back.map Prod.fst → name ≠ file.1 →
      w'.files.readText w.directory (joinPath directory name) = .ok text
  /-- either nothing was done, or the file holds the first bytes of its text -/
  own : Written directory files w w' ∨
    ∃ l count, LeadsTo w'.files w.directory (joinPath directory file.1) l ∧
      w'.files.at? l = some (.start file.2 count)
  /-- all other files are as before -/
  kept : ∀ l, (∀ f ∈ files ++ [file], ¬ LeadsTo w'.files w.directory (joinPath directory f.1) l) →
    KeptAt w.files w'.files l
  /-- nothing else changes, but for what can still go wrong and the log -/
  rest : SameBeside w w'

/-- What can still go wrong and the log do not count. -/
theorem Written.of_files (h : Written directory done w₀ w) (hfiles : w'.files = w.files)
    (hrest : SameBeside w₀ w') : Written directory done w₀ w' where
  holds := hfiles ▸ h.holds
  kept := hfiles ▸ h.kept
  rest := hrest

section Step

variable {name text : String} {e : Entry} {tree : FileTree}

/-- What is put into a file leaves the texts of the others. -/
theorem Written.holds_of_overwrite (h : Written directory done w₀ w)
    (hdone : ∀ f ∈ done, IsPlain f.1) (hname : IsPlain name)
    (hw : w.files.overwrite w₀.directory (joinPath directory name) e = .ok tree)
    {front back : List (String × String)} {name' text' : String}
    (hsplit : done = front ++ (name', text') :: back) (hlast : name' ∉ back.map Prod.fst)
    (hne : name' ≠ name) :
    tree.readText w₀.directory (joinPath directory name') = .ok text' := by
  have hplain : IsPlain name' := hdone (name', text') (by simp [hsplit])
  have htext : w.files.readText w₀.directory (joinPath directory name') = .ok text' :=
    h.holds front name' text' back hsplit hlast
  exact readText_of_overwrite_of_ne hname hplain hne hw htext

/-- What is put into a file leaves what no path leads to. -/
theorem Written.kept_of_overwrite (h : Written directory done w₀ w)
    (hdone : ∀ f ∈ done, IsPlain f.1) (hname : IsPlain name)
    (hw : w.files.overwrite w₀.directory (joinPath directory name) e = .ok tree) {l : Location}
    (hl : ∀ f ∈ done ++ [(name, text)], ¬ LeadsTo tree w₀.directory (joinPath directory f.1) l) :
    KeptAt w₀.files tree l := by
  obtain ⟨hkeep, -, hother⟩ := at?_of_overwrite hname hw
  have hbefore : KeptAt w₀.files w.files l :=
    h.kept l fun f hf hleads =>
      hl f (List.mem_append_left _ hf) (hleads.mono (hdone f hf) hkeep)
  have hnow : tree.at? l = w.files.at? l := hother l (hl (name, text) (by simp))
  exact hbefore.trans (.inl hnow)

/-- One more file. -/
theorem Written.step (h : Written directory done w₀ w) (hdone : ∀ f ∈ done, IsPlain f.1)
    (hname : IsPlain name) (hrest : SameBeside w w')
    (hw : w.files.overwrite w.directory (joinPath directory name) (.text text) = .ok w'.files) :
    Written directory (done ++ [(name, text)]) w₀ w' := by
  rw [h.rest.directory_eq] at hw
  refine ⟨?_, fun l hl => h.kept_of_overwrite hdone hname hw hl, h.rest.trans hrest⟩
  intro front name' text' back hsplit hlast
  -- what comes last of its name is the new file, or it came last before and has another name
  rcases List.eq_nil_or_concat back with rfl | ⟨back, file, rfl⟩
  · obtain ⟨-, hfile⟩ := List.append_inj' hsplit rfl
    cases hfile
    obtain ⟨-, ⟨l, hleads, hat⟩, -⟩ := at?_of_overwrite hname hw
    exact readText_eq_ok_iff.mpr ⟨l, hleads, hat⟩
  · rw [List.concat_eq_append] at hlast hsplit
    rw [← List.cons_append, ← List.append_assoc] at hsplit
    obtain ⟨hfront, hfile⟩ := List.append_inj' hsplit rfl
    cases hfile
    have hne : name' ≠ name := by
      rintro rfl
      exact hlast (by simp)
    refine h.holds_of_overwrite hdone hname hw hfront (fun hmem => hlast ?_) hne
    rw [List.map_append]
    exact List.mem_append_left _ hmem

/-- One more file that is not written, or not in full. -/
theorem Written.torn {fault : FileFault} (h : Written directory done w₀ w)
    (hdone : ∀ f ∈ done, IsPlain f.1) (hname : IsPlain name) (hrest : SameBeside w w')
    (hstep : WriteStep w.directory (joinPath directory name) text w.files (.error fault) w'.files) :
    Torn directory done (name, text) w₀ w' := by
  generalize htree : w'.files = tree at hstep
  cases hstep with
  | untouched =>
    have hw' : Written directory done w₀ w' := h.of_files htree (h.rest.trans hrest)
    exact ⟨fun _ _ _ _ hsplit hlast _ => hw'.holds _ _ _ _ hsplit hlast, .inl hw',
      fun l hl => hw'.kept l fun f hf => hl f (List.mem_append_left _ hf), hw'.rest⟩
  | broken file =>
    subst htree
    rw [h.rest.directory_eq] at file
    obtain ⟨-, ⟨l, hleads, hat⟩, -⟩ := at?_of_overwrite hname file
    exact ⟨fun _ _ _ _ hsplit hlast hne => h.holds_of_overwrite hdone hname file hsplit hlast hne,
      .inr ⟨l, _, hleads, hat⟩, fun l hl => h.kept_of_overwrite hdone hname file hl,
      h.rest.trans hrest⟩

end Step

/-- The messages that files are about to be written. -/
def announcements (directory : String) (files : List (String × String)) : List Message :=
  files.map fun f => announcement (joinPath directory f.1)

/-- Of a run that ends at a file: the files before it are written, and its own text is not. -/
structure EndsAt (directory : String) (done : List (String × String)) (file : String × String)
    (fault : FileFault) (w₀ before after : World) : Prop where
  /-- the files before it are written -/
  written : Written directory done w₀ before
  /-- each of them is announced -/
  log : before.log = w₀.log ++ announcements directory done
  /-- the file is announced, and its text is not written -/
  cause : (announced before (joinPath directory file.1)).writeText (joinPath directory file.1)
    file.2 = (.error fault, after)
  /-- what that leaves -/
  torn : Torn directory done file w₀ after

/-- The files are written until the first that fails. -/
theorem run_writeAll (hdone : ∀ f ∈ done, IsPlain f.1) (hfiles : ∀ f ∈ files, IsPlain f.1)
    (h : Written directory done w₀ w) (hlog : w.log = w₀.log ++ announcements directory done) :
    (∃ w', w.run (files.mapM fun (name, text) => writeFile directory name text) =
        (.ok (files.map fun f => joinPath directory f.1), w') ∧
      Written directory (done ++ files) w₀ w' ∧
      w'.log = w₀.log ++ announcements directory (done ++ files)) ∨
    ∃ front file back fault before after, files = front ++ file :: back ∧
      w.run (files.mapM fun (name, text) => writeFile directory name text) =
        (.error (.io fault.message), after) ∧
      EndsAt directory (done ++ front) file fault w₀ before after := by
  -- on the files that are left, where `Written` says what has become of those that are done
  induction files generalizing done w with
  | nil => exact .inl ⟨w, rfl, by simpa using h, by simpa using hlog⟩
  | cons file files ih =>
    obtain ⟨name, text⟩ := file
    have hname : IsPlain name := hfiles (name, text) List.mem_cons_self
    rw [List.mapM_cons, World.run_bind, run_writeFile]
    rcases hwrite : (announced w (joinPath directory name)).writeText (joinPath directory name) text
      with ⟨fault | _, next⟩
    · obtain ⟨hstep, hrest, -⟩ := writeStep_of_writeText hwrite
      have hbeside : SameBeside w next := (sameBeside_announced w _).trans hrest
      refine .inr ⟨[], (name, text), files, fault, w, next, rfl, rfl, ?_⟩
      rw [List.append_nil]
      exact ⟨h, hlog, hwrite, h.torn hdone hname hbeside hstep⟩
    · obtain ⟨hstep, hrest, hsame⟩ := writeStep_of_writeText hwrite
      have hbeside : SameBeside w next := (sameBeside_announced w _).trans hrest
      cases hstep with
      | taken hfile =>
        have hnext : Written directory (done ++ [(name, text)]) w₀ next :=
          h.step hdone hname hbeside hfile
        have hlog' : next.log = w₀.log ++ announcements directory (done ++ [(name, text)]) := by
          rw [hsame, announced, hlog]
          simp [announcements]
        have hdone' : ∀ f ∈ done ++ [(name, text)], IsPlain f.1 := by
          intro f hf
          rcases List.mem_append.mp hf with hf | hf
          · exact hdone f hf
          · exact List.mem_singleton.mp hf ▸ hname
        rcases ih hdone' (fun f hf => hfiles f (List.mem_cons_of_mem _ hf)) hnext hlog' with
          ⟨w', hrun, hwritten, hlast⟩ | ⟨front, file, back, fault, before, after, rfl, hrun, hends⟩
        · refine .inl ⟨w', ?_, by simpa using hwritten, by simpa using hlast⟩
          dsimp only
          rw [World.run_bind, hrun]
          rfl
        · refine .inr ⟨(name, text) :: front, file, back, fault, before, after, rfl, ?_,
            by simpa using hends⟩
          dsimp only
          rw [World.run_bind, hrun]

/-- Making the directory may fail, and then the files are written until the first that fails. -/
theorem run_writeFiles (w : World) (directory : String) (hfiles : ∀ f ∈ files, IsPlain f.1) :
    (∃ w', w.run (writeFiles directory files) =
        (.ok (files.map fun f => joinPath directory f.1), w') ∧
      Written directory files w w' ∧ w'.log = w.log ++ announcements directory files) ∨
    (∃ fault after, w.createDirectories directory = (.error fault, after) ∧
      w.run (writeFiles directory files) = (.error (.io fault.message), after) ∧
      Written directory [] w after ∧ after.log = w.log) ∨
    ∃ front file back fault before after, files = front ++ file :: back ∧
      w.run (writeFiles directory files) = (.error (.io fault.message), after) ∧
      EndsAt directory front file fault w before after := by
  obtain ⟨hbeside, hlog⟩ := sameBeside_createDirectories w directory
  have hmade : Written directory [] w (w.createDirectories directory).2 :=
    { holds := by simp
      kept := fun l _ => keptAt_world_createDirectories w directory l
      rest := hbeside }
  rw [writeFiles, World.run_bind, World.run_attempt_createDirectories]
  rcases hdir : w.createDirectories directory with ⟨fault | _, made⟩
  · rw [hdir] at hmade hlog
    exact .inr (.inl ⟨fault, made, rfl, rfl, hmade, hlog⟩)
  · rw [hdir] at hmade hlog
    have hnone : made.log = w.log ++ announcements directory [] := by
      simpa [announcements] using hlog
    exact (run_writeAll (by simp) hfiles hmade hnone).imp id .inr

/-! ## Tables -/

/-- Of a world after the schemas of some tables are written into a directory: the file of each
table holds the schema of the last table of its name, and every other file is kept. -/
structure Published (s : Settings) (directory : String) (tables : List Table) (w w' : World) :
    Prop where
  /-- the schema of the last table of each name is in the file of that name -/
  holds : ∀ front t back, tables = front ++ t :: back → t.name ∉ back.map Table.name →
    ∃ text, s.schemaText t = .ok text ∧
      w'.files.readText w.directory (s.pathOf directory t.name) = .ok text
  /-- all other files are as before -/
  kept : ∀ l, (∀ t ∈ tables, ¬ LeadsTo w'.files w.directory (s.pathOf directory t.name) l) →
    KeptAt w.files w'.files l
  /-- nothing else changes, but for what can still go wrong and the log -/
  rest : SameBeside w w'

/-- Of a world after the schemas of some tables are written and that of one more is not: the file of
each other table holds the schema of the last table of its name, the file of that one may break off,
and every other file is kept. -/
structure Interrupted (s : Settings) (directory : String) (tables : List Table) (t : Table)
    (w w' : World) : Prop where
  /-- the schema of the last table of each other name is in the file of that name -/
  holds : ∀ front u back, tables = front ++ u :: back → u.name ∉ back.map Table.name →
    u.name ≠ t.name → ∃ text, s.schemaText u = .ok text ∧
      w'.files.readText w.directory (s.pathOf directory u.name) = .ok text
  /-- either the file is as the tables before left it, or it holds the first bytes of its schema -/
  own : Published s directory tables w w' ∨ ∃ l text count, s.schemaText t = .ok text ∧
    LeadsTo w'.files w.directory (s.pathOf directory t.name) l ∧
      w'.files.at? l = some (.start text count)
  /-- all other files are as before -/
  kept : ∀ l, (∀ u ∈ tables ++ [t],
    ¬ LeadsTo w'.files w.directory (s.pathOf directory u.name) l) → KeptAt w.files w'.files l
  /-- nothing else changes, but for what can still go wrong and the log -/
  rest : SameBeside w w'

/-- The messages that the schemas of some tables are about to be written. -/
def tableAnnouncements (s : Settings) (directory : String) (tables : List Table) : List Message :=
  tables.map fun t => announcement (s.pathOf directory t.name)

section Tables

variable {s : Settings} {tables front back : List Table} {t : Table} {text : Table → String}

/-- Each table has a file. -/
def filesOf (s : Settings) (text : Table → String) (tables : List Table) :
    List (String × String) := tables.map fun t => (s.fileOf t.name, text t)

/-- A name that no later table has is the name of no later file. -/
theorem not_mem_names_filesOf (h : t.name ∉ back.map Table.name) :
    s.fileOf t.name ∉ (filesOf s text back).map Prod.fst := by
  intro hmem
  obtain ⟨u, hu, hname⟩ : ∃ u ∈ back, s.fileOf u.name = s.fileOf t.name := by
    simpa [filesOf] using hmem
  exact h (List.mem_map.mpr ⟨u, hu, s.fileOf_injective hname⟩)

theorem filesOf_append_cons :
    filesOf s text (front ++ t :: back) =
      filesOf s text front ++ (s.fileOf t.name, text t) :: filesOf s text back := by
  simp [filesOf]

/-- Files written in full are schemas published. -/
theorem Written.published (htext : ∀ t ∈ tables, s.schemaText t = .ok (text t))
    (h : Written directory (filesOf s text tables) w w') : Published s directory tables w w' where
  holds front t back hsplit hlast := by
    subst hsplit
    exact ⟨text t, htext t (by simp),
      h.holds _ _ _ _ filesOf_append_cons (not_mem_names_filesOf hlast)⟩
  kept l hl := h.kept l (by simpa [filesOf, Settings.pathOf] using hl)
  rest := h.rest

/-- A write that breaks off in the file of a table interrupts the publishing there. -/
theorem Torn.interrupted (htext : ∀ u ∈ tables, s.schemaText u = .ok (text u))
    (ht : s.schemaText t = .ok (text t))
    (h : Torn directory (filesOf s text tables) (s.fileOf t.name, text t) w w') :
    Interrupted s directory tables t w w' where
  holds front u back hsplit hlast hne := by
    subst hsplit
    exact ⟨text u, htext u (by simp), h.holds _ _ _ _ filesOf_append_cons
      (not_mem_names_filesOf hlast) fun hname => hne (s.fileOf_injective hname)⟩
  own := h.own.imp (·.published htext) fun ⟨l, count, hl⟩ => ⟨l, text t, count, ht, hl⟩
  kept l hl := h.kept l fun f hf => by
    obtain hf | hf := List.mem_append.mp hf
    · obtain ⟨u, hu, rfl⟩ := List.mem_map.mp hf
      exact hl u (List.mem_append_left _ hu)
    · obtain rfl := List.mem_singleton.mp hf
      exact hl t (by simp)
  rest := h.rest

/-- Different tables have different files, even where neither path leads to something. -/
theorem Interrupted.kept_of_path_ne {u : Table} {l : Location}
    (h : Interrupted s directory tables t w w') (hnames : ∀ v ∈ tables ++ [t], isFileName v.name)
    (hu : isFileName u.name)
    (hne : s.pathOf directory u.name ∉ (tables ++ [t]).map fun v => s.pathOf directory v.name)
    (hl : LeadsTo w'.files w.directory (s.pathOf directory u.name) l) :
    KeptAt w.files w'.files l := by
  refine h.kept l fun v hv hleads => hne (List.mem_map.mpr ⟨v, hv, ?_⟩)
  have hfile : s.fileOf v.name = s.fileOf u.name :=
    hleads.name_eq (Settings.isPlain_fileOf (hnames v hv)) (Settings.isPlain_fileOf hu) hl
  rw [Settings.pathOf, Settings.pathOf, hfile]

end Tables

theorem run_writeDirectory_of_ok {s : Settings} {tables : List Table}
    (h : s.files tables = .ok files) (directory : String) (w : World) :
    w.run (writeDirectory s tables directory) = w.run (writeFiles directory files) := by
  rw [writeDirectory, World.run_bind, World.run_settle, h]
  rfl

/-- What cannot be made leaves everything as it is. -/
theorem run_writeDirectory_of_error {s : Settings} {tables : List Table} {e : GeneratorError}
    (h : s.files tables = .error e) (directory : String) (w : World) :
    w.run (writeDirectory s tables directory) = (.error e, w) := by
  rw [writeDirectory, World.run_bind, World.run_settle, h]
  rfl

/-- What writing the schemas of tables into a directory can come to once they are made. -/
inductive Outcome (s : Settings) (directory : String) (tables : List Table) (w : World) :
    Except GeneratorError (List String) × World → Prop
  /-- every file is written, in the order of the tables -/
  | written {w' : World} (published : Published s directory tables w w')
      (log : w'.log = w.log ++ tableAnnouncements s directory tables) :
      Outcome s directory tables w (.ok (tables.map fun t => s.pathOf directory t.name), w')
  /-- the directory cannot be made, and no file is touched -/
  | noDirectory {fault : FileFault} {after : World}
      (cause : w.createDirectories directory = (.error fault, after))
      (published : Published s directory [] w after) (log : after.log = w.log) :
      Outcome s directory tables w (.error (.io fault.message), after)
  /-- the schema of one table cannot be written: those before it are, but for what becomes of its
  own file, and no file of a table after it is touched, unless it is the file of one of these -/
  | stopped {front back : List Table} {t : Table} {text : String} {fault : FileFault}
      {before after : World} (split : tables = front ++ t :: back)
      (published : Published s directory front w before)
      (log : before.log = w.log ++ tableAnnouncements s directory front)
      (made : s.schemaText t = .ok text)
      (cause : (announced before (s.pathOf directory t.name)).writeText
        (s.pathOf directory t.name) text = (.error fault, after))
      (interrupted : Interrupted s directory front t w after)
      (later : ∀ u ∈ back,
        s.pathOf directory u.name ∉ (front ++ [t]).map (fun v => s.pathOf directory v.name) →
          ∀ l, LeadsTo after.files w.directory (s.pathOf directory u.name) l →
            KeptAt w.files after.files l) :
      Outcome s directory tables w (.error (.io fault.message), after)

/-- Where all names and identifiers can be used, only the files can fail. -/
theorem outcome_of_writeDirectory {s : Settings} {tables : List Table}
    (hnames : ∀ t ∈ tables, isFileName t.name)
    (hids : ∀ t ∈ tables, ∃ id, s.identifier t.name = .ok id) (directory : String) (w : World) :
    Outcome s directory tables w (w.run (writeDirectory s tables directory)) := by
  obtain ⟨text, htext, hfiles⟩ := Settings.files_eq_ok hnames hids
  have hplain : ∀ f ∈ filesOf s text tables, IsPlain f.1 := by
    intro f hf
    obtain ⟨t, ht, rfl⟩ := List.mem_map.mp hf
    exact Settings.isPlain_fileOf (hnames t ht)
  -- a message for each file is a message for each table
  have hmessages : ∀ tables, announcements directory (filesOf s text tables) =
      tableAnnouncements s directory tables := by
    intro tables
    rw [announcements, filesOf, List.map_map]
    rfl
  rw [run_writeDirectory_of_ok hfiles]
  rcases run_writeFiles w directory hplain with ⟨w', hrun, hwritten, hlog⟩ |
    ⟨fault, after, hfault, hrun, hwritten, hlog⟩ |
    ⟨front, file, back, fault, before, after, hsplit, hrun, hends⟩
  · rw [filesOf] at hrun
    rw [hrun, List.map_map]
    exact .written (hwritten.published htext) (hmessages tables ▸ hlog)
  · have hnothing : Written directory (filesOf s text []) w after := hwritten
    rw [filesOf] at hrun
    rw [hrun]
    exact .noDirectory hfault (hnothing.published (by simp)) hlog
  · -- there is a file for each table, so that the files split where the tables do
    obtain ⟨front, later, rfl, rfl, hlater⟩ := List.map_eq_append_iff.mp hsplit
    obtain ⟨t, back, rfl, rfl, rfl⟩ := List.map_eq_cons_iff.mp hlater
    have hfront : ∀ u ∈ front, s.schemaText u = .ok (text u) :=
      fun u hu => htext u (List.mem_append_left _ hu)
    have ht : s.schemaText t = .ok (text t) := htext t (by simp)
    have hinterrupted : Interrupted s directory front t w after := hends.torn.interrupted hfront ht
    rw [filesOf] at hrun
    rw [hrun]
    refine .stopped rfl (hends.written.published hfront) (hmessages front ▸ hends.log) ht
      hends.cause hinterrupted fun u hu hne l hl => ?_
    refine hinterrupted.kept_of_path_ne (fun v hv => hnames v ?_) (hnames u (by simp [hu])) hne hl
    obtain hv | hv := List.mem_append.mp hv
    · exact List.mem_append_left _ hv
    · exact List.mem_singleton.mp hv ▸ by simp

end TableSchema.Run
