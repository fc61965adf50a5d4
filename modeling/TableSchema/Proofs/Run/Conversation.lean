import Mathlib.Data.List.ReduceOption
import TableSchema.Host.World
import TableSchema.Proofs.Source.Description
import TableSchema.Run.Reading

/-!
# The conversation with a server

What a run asks a server, and what comes of it, whatever the server answers: it asks for the names
of all tables and then for the columns of each of them, one table after the other. The first table
that there is no model of ends the conversation. The answers may depend on all that was asked
before, so each question is one about the server after the questions before it.
-/

namespace TableSchema.Run

open Catalog Host Source

/-! ## What a server says -/

/-- Asked for the names of all tables, the server gives these, where a name that is null is left
out. -/
def Lists (server : Server) (before names : List String) : Prop :=
  ∃ rows cells, server.answer before showTables = .ok rows ∧
    List.Forall₂ (fun row cell => cellText row 0 = .ok cell) rows cells ∧
    names = cells.reduceOption

/-- Asked for the columns of a table, the server gives what this model is made of, or there is none
for this reason: it gives no answer, a row of the answer cannot be read, or a described column has
a type without a meaning. -/
inductive Describes (server : Server) (types : TypeTable) (before : List String) (name : String) :
    Except SourceError Table → Prop where
  | refused {reason : String} (hanswer : server.answer before (describe name) = .error reason) :
      Describes server types before name (.error (.server reason))
  | unreadable {front back : List Row} {row : Row} {reason : String}
      (hanswer : server.answer before (describe name) = .ok (front ++ row :: back))
      (hfront : ∀ x ∈ front, ∃ d, descriptionOfRow x = .ok d)
      (hrow : descriptionOfRow row = .error reason) :
      Describes server types before name (.error (.server reason))
  | unresolved {rows : List Row} {front back : List DescribeRow} {d : DescribeRow}
      (hanswer : server.answer before (describe name) = .ok rows)
      (hrows : List.Forall₂ (fun row x => descriptionOfRow row = .ok x) rows (front ++ d :: back))
      (hfront : ∀ x ∈ front, x.dataType ∈ types.entries.keys)
      (hd : d.dataType ∉ types.entries.keys) :
      Describes server types before name (.error (.description name ⟨d.dataType⟩))
  | model {rows : List Row} {description : List DescribeRow} {t : Table}
      (hanswer : server.answer before (describe name) = .ok rows)
      (hrows : List.Forall₂ (fun row x => descriptionOfRow row = .ok x) rows description)
      (htable : tableOfDescription types name description = .ok t) :
      Describes server types before name (.ok t)

/-- Asked for the columns of one table after the other, the server gives what these models are made
of. -/
inductive DescribesAll (server : Server) (types : TypeTable) :
    (before names : List String) → List Table → Prop where
  | nil {before : List String} : DescribesAll server types before [] []
  | cons {before names : List String} {name : String} {t : Table} {tables : List Table}
      (hname : Describes server types before name (.ok t))
      (hnames : DescribesAll server types (before ++ [describe name]) names tables) :
      DescribesAll server types before (name :: names) (t :: tables)

/-- The queries that a server gets after some others until its tables are read, and what they come
to. -/
inductive Conversation (server : Server) (types : TypeTable) (before : List String) :
    (sent : List String) → Except SourceError (List Table) → Prop where
  | unlisted {reason : String} (hlist : server.answer before showTables = .error reason) :
      Conversation server types before [showTables] (.error (.server reason))
  | unnamed {front back : List Row} {row : Row} {reason : String}
      (hlist : server.answer before showTables = .ok (front ++ row :: back))
      (hfront : ∀ x ∈ front, ∃ cell, cellText x 0 = .ok cell)
      (hrow : cellText row 0 = .error reason) :
      Conversation server types before [showTables] (.error (.server reason))
  | stopped {front back : List String} {name : String} {tables : List Table} {e : SourceError}
      (hlist : Lists server before (front ++ name :: back))
      (hfront : DescribesAll server types (before ++ [showTables]) front tables)
      (hname :
        Describes server types (before ++ showTables :: front.map describe) name (.error e)) :
      Conversation server types before (showTables :: (front ++ [name]).map describe) (.error e)
  | unclosed {names : List String} {tables : List Table} {reason : String}
      (hlist : Lists server before names)
      (hnames : DescribesAll server types (before ++ [showTables]) names tables)
      (hclosing : server.closing = some reason) :
      Conversation server types before (showTables :: names.map describe)
        (.error (.server reason))
  | finished {names : List String} {tables : List Table}
      (hlist : Lists server before names)
      (hnames : DescribesAll server types (before ++ [showTables]) names tables)
      (hclosing : server.closing = none) :
      Conversation server types before (showTables :: names.map describe) (.ok tables)

/-! ## One table -/

section OneTable

variable {server : Server} {types : TypeTable} {name : String}

/-- Every server describes a table or gives a reason why there is none. -/
theorem exists_describes (server : Server) (types : TypeTable) (before : List String)
    (name : String) : ∃ result, Describes server types before name result := by
  cases hanswer : server.answer before (describe name) with
  | error reason => exact ⟨_, .refused hanswer⟩
  | ok rows =>
    cases hrows : rows.mapM descriptionOfRow with
    | error reason =>
      obtain ⟨front, row, back, rfl, hrow, hfront⟩ := mapM_eq_error_iff.mp hrows
      exact ⟨_, .unreadable hanswer hfront hrow⟩
    | ok description =>
      cases htable : tableOfDescription types name description with
      | ok t => exact ⟨_, .model hanswer (mapM_eq_ok_iff.mp hrows) htable⟩
      | error e =>
        obtain ⟨front, d, back, rfl, ⟨hd, -⟩, hfront⟩ := tableOfDescription_eq_error_iff.mp htable
        exact ⟨_, .unresolved hanswer (mapM_eq_ok_iff.mp hrows) hfront hd⟩

/-- The world after some more queries. -/
def asking (w : World) (sent : List String) : World := { w with queries := w.queries ++ sent }

theorem ask_eq {w : World} (hsession : w.session = some server) (query : String) :
    w.ask query = (server.answer w.queries query, asking w [query]) := by
  simp only [World.ask, asking, hsession]

theorem run_describeTable {w : World} (hsession : w.session = some server)
    {result : Except SourceError Table} (h : Describes server types w.queries name result) :
    w.run (describeTable types name) = (result, asking w [describe name]) := by
  rw [describeTable, World.run_bind, World.run_attempt_ask, ask_eq hsession]
  cases h with
  | refused hanswer => rw [hanswer]; rfl
  | @unreadable front back row _ hanswer hfront hrow =>
    have hrows := mapM_eq_error_iff.mpr ⟨front, row, back, rfl, hrow, hfront⟩
    simp only [hanswer, Except.mapError, World.run_bind, World.run_settle, hrows]
  | @unresolved _ front back d hanswer hrows hfront hd =>
    have htable : tableOfDescription types name (front ++ d :: back) = .error ⟨d.dataType⟩ :=
      tableOfDescription_eq_error_iff.mpr ⟨front, d, back, rfl, ⟨hd, rfl⟩, hfront⟩
    simp only [hanswer, Except.mapError, World.run_bind, World.run_settle,
      mapM_eq_ok_iff.mpr hrows, htable]
  | model hanswer hrows htable =>
    simp only [hanswer, Except.mapError, World.run_bind, World.run_settle,
      mapM_eq_ok_iff.mpr hrows, htable]

end OneTable

/-! ## All tables -/

section AllTables

variable {server : Server} {types : TypeTable}

@[simp] theorem asking_nil (w : World) : asking w [] = w := by simp [asking]

@[simp] theorem asking_asking (w : World) (sent more : List String) :
    asking (asking w sent) more = asking w (sent ++ more) := by simp [asking]

/-- Where the server describes every table, all of them are asked for. -/
theorem run_mapM_describeTable {w : World} (hsession : w.session = some server)
    {names : List String} {tables : List Table}
    (h : DescribesAll server types w.queries names tables) :
    w.run (names.mapM (describeTable types)) = (.ok tables, asking w (names.map describe)) := by
  generalize hbefore : w.queries = before at h
  induction h generalizing w with
  | nil =>
    rw [List.mapM_nil, List.map_nil, asking_nil]
    rfl
  | @cons _ names name t tables hname _ ih =>
    subst hbefore
    rw [List.mapM_cons, World.run_bind, run_describeTable hsession hname]
    dsimp only
    rw [World.run_bind, ih (w := asking w [describe name]) hsession rfl, asking_asking]
    rfl

/-- Where there is a table that the server does not describe, no table behind it is asked for. -/
theorem run_mapM_describeTable_stopped {w : World} (hsession : w.session = some server)
    {front back : List String} {name : String} {tables : List Table} {e : SourceError}
    (hfront : DescribesAll server types w.queries front tables)
    (hname : Describes server types (w.queries ++ front.map describe) name (.error e)) :
    w.run ((front ++ name :: back).mapM (describeTable types)) =
      (.error e, asking w ((front ++ [name]).map describe)) := by
  rw [List.mapM_append, World.run_bind, run_mapM_describeTable hsession hfront]
  dsimp only
  rw [World.run_bind, List.mapM_cons, World.run_bind,
    run_describeTable (w := asking w (front.map describe)) hsession hname, asking_asking,
    List.map_append]
  rfl

/-- Every server describes the tables of some names, or those up to one that it does not. -/
theorem describesAll_or_stopped (server : Server) (types : TypeTable)
    (before names : List String) :
    (∃ tables, DescribesAll server types before names tables) ∨
      ∃ front name back tables e, names = front ++ name :: back ∧
        DescribesAll server types before front tables ∧
        Describes server types (before ++ front.map describe) name (.error e) := by
  induction names generalizing before with
  | nil => exact .inl ⟨[], .nil⟩
  | cons name names ih =>
    obtain ⟨e | t, hname⟩ := exists_describes server types before name
    · refine .inr ⟨[], name, names, [], e, rfl, .nil, ?_⟩
      rwa [List.map_nil, List.append_nil]
    · obtain ⟨tables, hnames⟩ | ⟨front, last, back, tables, e, rfl, hfront, hlast⟩ :=
        ih (before ++ [describe name])
      · exact .inl ⟨t :: tables, .cons hname hnames⟩
      · refine .inr ⟨name :: front, last, back, t :: tables, e, rfl, .cons hname hfront, ?_⟩
        rwa [List.map_cons, List.append_cons]

end AllTables

/-! ## From the connection to its end -/

theorem namesOfRows_eq (rows : List Row) :
    namesOfRows rows = (rows.mapM (cellText · 0)).map List.reduceOption := by
  rw [namesOfRows]
  cases rows.mapM (cellText · 0) <;> rfl

section Server

variable {server : Server} {types : TypeTable}

/-- The names of all tables, as the server gives them. -/
def namesOf (server : Server) (before : List String) : Except String (List String) :=
  server.answer before showTables >>= namesOfRows

theorem Lists.namesOf_eq {before names : List String} (h : Lists server before names) :
    namesOf server before = .ok names := by
  obtain ⟨rows, cells, hanswer, hcells, rfl⟩ := h
  rw [namesOf, hanswer]
  change namesOfRows rows = _
  rw [namesOfRows_eq, mapM_eq_ok_iff.mpr hcells]
  rfl

/-- Every server has a conversation. -/
theorem exists_conversation (server : Server) (types : TypeTable) (before : List String) :
    ∃ sent result, Conversation server types before sent result := by
  cases hanswer : server.answer before showTables with
  | error reason => exact ⟨_, _, .unlisted hanswer⟩
  | ok rows =>
    cases hcells : rows.mapM (cellText · 0) with
    | error reason =>
      obtain ⟨front, row, back, rfl, hrow, hfront⟩ := mapM_eq_error_iff.mp hcells
      exact ⟨_, _, .unnamed hanswer hfront hrow⟩
    | ok cells =>
      have hlist : Lists server before cells.reduceOption :=
        ⟨rows, cells, hanswer, mapM_eq_ok_iff.mp hcells, rfl⟩
      obtain ⟨tables, hnames⟩ | ⟨front, name, back, tables, e, hsplit, hfront, hname⟩ :=
        describesAll_or_stopped server types (before ++ [showTables]) cells.reduceOption
      · cases hclosing : server.closing with
        | some reason => exact ⟨_, _, .unclosed hlist hnames hclosing⟩
        | none => exact ⟨_, _, .finished hlist hnames hclosing⟩
      · rw [hsplit] at hlist
        rw [List.append_assoc] at hname
        exact ⟨_, _, .stopped hlist hfront hname⟩

/-- The world when it is connected to a server. -/
def connected (w : World) (server : Server) : World := { w with session := some server }

/-- After the first query, what is left is to settle what it came to. -/
theorem run_readServer {w : World} {address : String} (hserver : w.servers address = some server)
    (hopen : server.refusal = none) :
    w.run (readServer types address) = (asking (connected w server) [showTables]).run (do
      let names ← settle (namesOf server w.queries) .server
      Host.log ⟨.info, s!"Found {names.length} tables"⟩
      let tables ← names.mapM (describeTable types)
      attempt Host.disconnect .server
      return tables) := by
  have hconnect : w.connect address = (.ok (), connected w server) := by
    simp only [World.connect, hserver, hopen, connected]
  rw [readServer, World.run_bind, World.run_attempt_connect, hconnect]
  dsimp only [Except.mapError]
  have hask : World.ask showTables (connected w server) =
      (server.answer w.queries showTables, asking (connected w server) [showTables]) := ask_eq rfl _
  rw [World.run_bind, World.run_attempt_ask, hask, namesOf]
  cases server.answer w.queries showTables <;> rfl

theorem run_readServer_of_error {w : World} {address : String}
    (hserver : w.servers address = some server) (hopen : server.refusal = none) {reason : String}
    (h : namesOf server w.queries = .error reason) :
    w.run (readServer types address) =
      (.error (.server reason), asking (connected w server) [showTables]) := by
  rw [run_readServer hserver hopen, World.run_bind, World.run_settle, h]
  rfl

/-- The world when it has got the names of all tables from a server. -/
def listed (w : World) (server : Server) (names : List String) : World :=
  { asking (connected w server) [showTables] with
    log := w.log ++ [⟨.info, s!"Found {names.length} tables"⟩] }

theorem run_readServer_of_lists {w : World} {address : String}
    (hserver : w.servers address = some server) (hopen : server.refusal = none)
    {names : List String} (h : Lists server w.queries names) :
    w.run (readServer types address) = (listed w server names).run (do
      let tables ← names.mapM (describeTable types)
      attempt Host.disconnect .server
      return tables) := by
  rw [run_readServer hserver hopen, World.run_bind, World.run_settle, h.namesOf_eq]
  rfl

/-- Where all tables are described, the end of the conversation decides. -/
theorem run_readServer_of_describesAll {w : World} {address : String}
    (hserver : w.servers address = some server) (hopen : server.refusal = none)
    {names : List String} {tables : List Table} (hlist : Lists server w.queries names)
    (hnames : DescribesAll server types (w.queries ++ [showTables]) names tables) :
    w.run (readServer types address) =
      (match server.closing with
        | some reason => .error (.server reason)
        | none => .ok tables,
        { asking (listed w server names) (names.map describe) with session := none }) := by
  rw [run_readServer_of_lists hserver hopen hlist, World.run_bind,
    run_mapM_describeTable (w := listed w server names) rfl hnames]
  dsimp only
  have hsession : (asking (listed w server names) (names.map describe)).session = some server := rfl
  rw [World.run_bind, World.run_attempt_disconnect, World.disconnect, hsession, Option.bind_some]
  cases server.closing <;> rfl

/-- A conversation is what a run on a world of the server is about. -/
theorem Conversation.run {w : World} {address : String} {sent : List String}
    {result : Except SourceError (List Table)} (hserver : w.servers address = some server)
    (hopen : server.refusal = none) (h : Conversation server types w.queries sent result) :
    (w.run (readServer types address)).1 = result ∧
      (w.run (readServer types address)).2.queries = w.queries ++ sent := by
  cases h with
  | @unlisted reason hlist =>
    have hnames : namesOf server w.queries = .error reason := by rw [namesOf, hlist]; rfl
    rw [run_readServer_of_error hserver hopen hnames]
    exact ⟨rfl, rfl⟩
  | @unnamed front back row reason hlist hfront hrow =>
    have hnames : namesOf server w.queries = .error reason := by
      rw [namesOf, hlist]
      change namesOfRows _ = _
      rw [namesOfRows_eq, mapM_eq_error_iff.mpr ⟨front, row, back, rfl, hrow, hfront⟩]
      rfl
    rw [run_readServer_of_error hserver hopen hnames]
    exact ⟨rfl, rfl⟩
  | stopped hlist hfront hname =>
    rw [List.append_cons] at hname
    rw [run_readServer_of_lists hserver hopen hlist, World.run_bind,
      run_mapM_describeTable_stopped rfl hfront hname]
    exact ⟨rfl, List.append_assoc _ _ _⟩
  | unclosed hlist hnames hclosing =>
    rw [run_readServer_of_describesAll hserver hopen hlist hnames, hclosing]
    exact ⟨rfl, List.append_assoc _ _ _⟩
  | finished hlist hnames hclosing =>
    rw [run_readServer_of_describesAll hserver hopen hlist hnames, hclosing]
    exact ⟨rfl, List.append_assoc _ _ _⟩

end Server

/-! ## Names in queries -/

/-- A quoted name is read back whole, also where something else stands behind it. -/
theorem unquoteName?_inside (name rest : List Char) (hrest : ∀ cs, rest ≠ '\x60' :: cs) :
    unquoteName?.inside
        (name.flatMap (fun c => if c = '\x60' then [c, c] else [c]) ++ '\x60' :: rest) =
      some (name, rest) := by
  induction name with
  | nil =>
    cases rest with
    | nil => rfl
    | cons d cs =>
      have hd : d ≠ '\x60' := fun h => hrest cs (h ▸ rfl)
      rw [List.flatMap_nil, List.nil_append, unquoteName?.inside, if_pos rfl, if_neg hd]
  | cons c name ih =>
    rw [List.flatMap_cons, List.append_assoc]
    by_cases hc : c = '\x60'
    · rw [if_pos hc, List.cons_append, List.singleton_append, unquoteName?.inside, if_pos hc,
        if_pos hc, ih]
      rfl
    · -- a name is followed by a backtick at least, so the reader sees two characters
      obtain ⟨d, cs, htail⟩ := List.exists_cons_of_ne_nil (List.append_ne_nil_of_right_ne_nil
        (name.flatMap fun c => if c = '\x60' then [c, c] else [c]) (List.cons_ne_nil '\x60' rest))
      rw [if_neg hc, List.singleton_append, htail, unquoteName?.inside, if_neg hc, ← htail, ih]
      rfl

theorem unquoteName?_quoteName (name : List Char) :
    unquoteName? (quoteName name) = some (name, []) :=
  unquoteName?_inside name [] fun _ => (List.cons_ne_nil _ _).symm

/-! ## The whole conversation -/

/-- **The conversation with a server.** Whatever a server answers, after the connection it gets the
query for the names of all tables, and then the queries for the columns of each of them in order up
to the first one that there is no model of, whose reason is the result. If there is a model of each
of them and the connection can be closed, the models are the result. In a query a name stands
between backticks, and whatever it is made of it is read back from there with nothing left over. -/
theorem readServer_conversation (types : TypeTable) (address : String) (w : World) (server : Server)
    (hserver : w.servers address = some server) (hopen : server.refusal = none) :
    (∃ sent, (w.run (readServer types address)).2.queries = w.queries ++ sent ∧
      ∀ sent' result, Conversation server types w.queries sent' result ↔
        sent' = sent ∧ result = (w.run (readServer types address)).1) ∧
    ∀ name, ∃ quoted, (describe name).toList = "DESCRIBE ".toList ++ quoted ∧
      unquoteName? quoted = some (name.toList, []) := by
  refine ⟨?_, fun name => ⟨quoteName name.toList, ?_, unquoteName?_quoteName _⟩⟩
  · obtain ⟨sent, result, h⟩ := exists_conversation server types w.queries
    obtain ⟨rfl, hqueries⟩ := h.run hserver hopen
    refine ⟨sent, hqueries, fun sent' result => ⟨fun h' => ?_, ?_⟩⟩
    · obtain ⟨rfl, hqueries'⟩ := h'.run hserver hopen
      exact ⟨List.append_cancel_left (hqueries'.symm.trans hqueries), rfl⟩
    · rintro ⟨rfl, rfl⟩
      exact h
  · rw [describe, String.toList_append]
    exact congrArg ("DESCRIBE ".toList ++ ·) String.toList_ofList

/-- A server that is gone after it has described one of two tables. The name of the first table is
made of backticks, and there is a name that is null between the two. -/
theorem readServer_conversation_gone :
    let server : Server :=
      { answer := fun before query =>
          if query = showTables then
            .ok [[.text (Text.encode "\x60\x60".toList)], [.null], [.text (Text.encode ['b'])]]
          else if before.length = 1 then
            .ok [[.text (Text.encode ['x']), .text (Text.encode "int".toList), .null,
              .text (Text.encode "PRI".toList), .null, .null]]
          else .error "gone" }
    let w : World := { servers := fun _ => some server }
    (w.run (readServer .mysql "mysql://")).1 = .error (.server "gone") ∧
      (w.run (readServer .mysql "mysql://")).2.queries =
        ["SHOW TABLES", "DESCRIBE \x60\x60\x60\x60\x60\x60", "DESCRIBE \x60b\x60"] := by
  intro server w
  obtain ⟨⟨sent, hqueries, hsent⟩, -⟩ :=
    readServer_conversation .mysql "mysql://" w server rfl rfl
  have hlist : Lists server [] (["\x60\x60"] ++ "b" :: []) :=
    ⟨_, [some "\x60\x60", none, some "b"], rfl,
      .cons (by decide +kernel) (.cons rfl (.cons (by decide +kernel) .nil)), rfl⟩
  have hfirst : Describes server .mysql ["SHOW TABLES"] "\x60\x60"
      (.ok ⟨"\x60\x60", [⟨"x", ⟨.number, none⟩⟩], ["x"]⟩) :=
    @Describes.model _ _ _ _ [_] [⟨"x", "int", none, some "PRI", none, none⟩] _ rfl
      (.cons (by decide +kernel) .nil) (by decide +kernel)
  have hlast : Describes server .mysql ["SHOW TABLES", describe "\x60\x60"] "b"
      (.error (.server "gone")) := .refused (by decide +kernel)
  obtain ⟨rfl, hresult⟩ := (hsent _ _).mp (.stopped hlist (.cons hfirst .nil) hlast)
  refine ⟨hresult.symm, hqueries.trans ?_⟩
  decide +kernel

end TableSchema.Run
