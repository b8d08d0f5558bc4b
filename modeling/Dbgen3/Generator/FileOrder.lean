import Dbgen3.Generator.Outputs
import Dbgen3.Generator.Reports
import Dbgen3.Generator.Transactions

/-!
# The order of the listed files

Where every description rolls back what it executed, a document is loaded alike
whatever files were processed before it. Two runs that succeed then leave the
same header for every file that both of them list.
-/

namespace Dbgen3.Generator

open Act
open Dbgen3.Runtime (Cli Handle World)

section

variable {σ D : Type} {cli : Cli σ} {con : Handle} {db start : σ → D}
  {same : List (Handle × Handle) → σ → σ → Prop} {d₀ : D}

/-! ## Loading in two worlds -/

/-- The transaction began with `d₀`, and no change is left over. -/
def IdleAt (db start : σ → D) (d₀ : D) (w : World σ) : Prop := db w.drv = d₀ ∧ start w.drv = d₀

/-- Both worlds are idle with one database. -/
def IdlePair (db start : σ → D) (d₀ : D) (w w' : World σ) : Prop :=
  IdleAt db start d₀ w ∧ IdleAt db start d₀ w'

/-- A query whose text is described while the children of a document are loaded. -/
def DescribedIn (target : Rdbms) (nodes : List Dom) (r : GsqlQ) : Prop :=
  ∃ attrs children ndx ctx c, .element "q" attrs children ∈ nodes ∧
    collect ctx target { q := newQuery attrs ndx target, sqlSet := { dbType := target } } children =
      .ok c ∧
    c.sqlSet.empty = false ∧ r = c.q.setSqlSet c.sqlSet

/-- In every state without a change left over, the query rolls back what it executes. -/
def AlwaysRollsBack (cli : Cli σ) (con : Handle) (db start : σ → D) (r : GsqlQ) : Prop :=
  ∀ d, db d = start d → RollsBack cli con r d

section Loading

variable (hcli : Transactional cli con db start same)
include hcli

theorem idleAt_described {r : GsqlQ} (hr : AlwaysRollsBack cli con db start r) {w : World σ}
    (hw : IdleAt db start d₀ w) : IdleAt db start d₀ (describeStep cli con w r) := by
  have hidle : db w.drv = start w.drv := hw.1.trans hw.2.symm
  have hstart : start (describeStep cli con w r).drv = d₀ :=
    (describeStep_start hcli w r).trans hw.2
  exact ⟨(describeStep_idle hcli hidle (hr _ hidle)).trans hstart, hstart⟩

theorem agree_described {r : GsqlQ} (hr : AlwaysRollsBack cli con db start r) :
    Agree (IdlePair db start d₀) (· = ·) (IdlePair db start d₀) (loadQSqlsetFromDb cli r con)
      (loadQSqlsetFromDb cli r con) := by
  rintro w w' ⟨hw, hw'⟩
  refine ⟨endAlike_of_toOption_eq ?_, idleAt_described hcli hr hw, idleAt_described hcli hr hw'⟩
  exact (description_eq hcli (hw.1.trans hw.2.symm) (hw'.1.trans hw'.2.symm)
    (hw'.2.trans hw.2.symm) r).symm

theorem agree_loadQ {target : Rdbms} {nodes : List Dom} {attrs : Attrs} {children : List Dom}
    (hmem : .element "q" attrs children ∈ nodes)
    (hr : ∀ r, DescribedIn target nodes r → AlwaysRollsBack cli con db start r) (ndx : Nat)
    (ctx : List Str) :
    Agree (IdlePair db start d₀) (· = ·) (IdlePair db start d₀)
      (loadQ cli attrs children ndx ctx con target)
      (loadQ cli attrs children ndx ctx con target) := by
  rw [loadQ_eq]
  cases hc : collect (ctx ++ [queryId attrs ndx]) target
      { q := newQuery attrs ndx target, sqlSet := { dbType := target } } children with
  | error e => exact agree_throw e e
  | ok c =>
      change Agree _ _ _ (if ! c.sqlSet.empty then _ else _) (if ! c.sqlSet.empty then _ else _)
      cases hempty : c.sqlSet.empty with
      | true => exact agree_pure rfl
      | false =>
          exact agree_described hcli (hr _ ⟨attrs, children, ndx, _, c, hmem, hc, hempty, rfl⟩)

theorem agree_loadQSetFrom {target : Rdbms} {nodes : List Dom}
    (hr : ∀ r, DescribedIn target nodes r → AlwaysRollsBack cli con db start r) (ctx : List Str)
    (qNdx : Nat) (set : GsqlQSet) :
    Agree (IdlePair db start d₀) (· = ·) (IdlePair db start d₀)
      (loadQSetFrom cli ctx con target qNdx set nodes)
      (loadQSetFrom cli ctx con target qNdx set nodes) := by
  induction nodes generalizing qNdx set with
  | nil => exact agree_pure rfl
  | cons n rest ih =>
      have hrest : ∀ r, DescribedIn target rest r → AlwaysRollsBack cli con db start r := by
        rintro r ⟨attrs, children, ndx, ctx, c, hmem, h⟩
        exact hr r ⟨attrs, children, ndx, ctx, c, List.mem_cons_of_mem n hmem, h⟩
      obtain ⟨attrs, children, rfl⟩ | ⟨attrs, children, rfl⟩ | hskip := n.hdr_or_q_or_skipped
      · rw [loadQSetFrom, if_pos rfl]
        refine (agree_fromResult (EndAlike.refl _)).bind ?_
        rintro header _ rfl
        exact ih hrest qNdx _
      · rw [loadQSetFrom, if_neg (by decide), if_pos rfl]
        refine (agree_loadQ hcli List.mem_cons_self hr (qNdx + 1) ctx).bind ?_
        rintro q _ rfl
        exact .ite Iff.rfl (agree_throw _ _) (ih hrest (qNdx + 1) _)
      · rw [loadQSetFrom_skipped hskip]
        exact ih hrest qNdx set

end Loading

/-! ## Loading a file -/

/-- The answers depend on the path alone, not on the number of the call. -/
structure Env.Steady (env : Env) : Prop where
  weaklyCanonical : ∀ m n p, env.weaklyCanonical n p = env.weaklyCanonical m p
  fileExists : ∀ m n p, env.fileExists n p = env.fileExists m p
  parseURI : ∀ m n p, env.parseURI n p = env.parseURI m p
  openFile : ∀ m n p, env.openFile n p = env.openFile m p
  ctime : ∀ m n, env.ctime n = env.ctime m

/-- Every query of the document of a file rolls back what it executes. -/
def FileRollsBack (env : Env) (cli : Cli σ) (con : Handle) (db start : σ → D) (target : Rdbms)
    (file : Str) : Prop :=
  ∀ n root, (env.parsed (file, n)).2 = .ok (some root) →
    ∀ r, DescribedIn target root.children r → AlwaysRollsBack cli con db start r

section Files

variable {env : Env} {target : Rdbms} {file : Str} {t t' : ExecState σ}

theorem Env.Steady.exists_eq (h : env.Steady) (file : Str) (m n : Nat) :
    env.exists (file, n) = env.exists (file, m) := by
  change env.fileExists n (env.weaklyCanonical n file) =
    env.fileExists m (env.weaklyCanonical m file)
  rw [h.weaklyCanonical m n, h.fileExists m n]

theorem Env.Steady.parsed_eq (h : env.Steady) (file : Str) (m n : Nat) :
    env.parsed (file, n) = env.parsed (file, m) := by
  change env.parseURI n (env.weaklyCanonical n file) = env.parseURI m (env.weaklyCanonical m file)
  rw [h.weaklyCanonical m n, h.parseURI m n]

/-- The world of the connection. -/
abbrev ExecState.world (t : ExecState σ) : World σ := t.conn.world

section

variable (hcli : Transactional cli con db start same)
  (hr : FileRollsBack env cli con db start target file)
include hcli hr

/-- What follows the parsing of a document leaves no change behind. -/
theorem idleAt_parseFileRest {doc : Option DomRoot} {n : Nat}
    (hdoc : (env.parsed (file, n)).2 = .ok doc) (ht : IdleAt db start d₀ t.world) :
    IdleAt db start d₀ (parseFileRest env cli con target file t doc).2.world := by
  unfold parseFileRest
  split
  · exact ht
  · cases doc with
    | none => exact ht
    | some root =>
        change IdleAt db start d₀ (runOn (onConn (Runtime.onWorld _)) t).2.world
        rw [onConn, runOn_zoom, Runtime.onWorld, runOn_zoom]
        exact (agree_loadQSetFrom hcli (hr n root hdoc) _ 0 _ _ _ ⟨ht, ht⟩).2.1

/-- No call of `parse_file` leaves a change behind, however it ends. -/
theorem idleAt_parseFile (ht : IdleAt db start d₀ t.world) :
    IdleAt db start d₀ (runOn (parseFile env cli file con target) t).2.world := by
  rw [runOn_parseFile]
  change IdleAt db start d₀ (runOn (parseFileBody env cli file con target) t).2.world
  cases hexists : env.exists (t.nextCall file) with
  | false =>
      obtain ⟨msg, hbody⟩ := parseFileBody_missing env cli con target hexists
      rw [hbody]
      exact ht
  | true =>
      rw [parseFileBody_exists env cli con target hexists]
      cases hdoc : (env.parsed (t.nextCall file)).2 with
      | error e => exact ht
      | ok doc => exact idleAt_parseFileRest (t := t.parsed env file) hcli hr hdoc ht

omit hcli hr in
/-- A failure that is not raised leaves the default query set. -/
theorem parseFileResult_error_ok {e : Exc} {set : GsqlQSet}
    (h : parseFileResult (.error e) = .ok set) : set = {} := by
  change (if Rethrown e then .error e else .ok {}) = Except.ok set at h
  split at h
  · cases h
  · exact (Except.ok.inj h).symm

/-- Two ends of the `try` block that both return give the same query set. -/
theorem parseFileRest_eq {doc : Option DomRoot} {n : Nat} {set set' : GsqlQSet}
    (henv : env.Steady) (hdoc : (env.parsed (file, n)).2 = .ok doc)
    (ht : IdleAt db start d₀ t.world) (ht' : IdleAt db start d₀ t'.world)
    (h : parseFileResult (parseFileRest env cli con target file t doc).1 = .ok set)
    (h' : parseFileResult (parseFileRest env cli con target file t' doc).1 = .ok set') :
    set = set' := by
  unfold parseFileRest at h h'
  split at h
  · cases h
  · split at h'
    · cases h'
    · cases doc with
      | none => cases h
      | some root =>
          have hagree := agree_loadQSetFrom hcli (hr n root hdoc)
            [qSetId root.attrs (env.weaklyCanonical n file)] 0
            { id := qSetId root.attrs (env.weaklyCanonical n file) } _ _ ⟨ht, ht'⟩
          simp only [onConn, runOn_zoom, Runtime.onWorld, loadQSet,
            henv.weaklyCanonical n t.parseCnt] at h
          simp only [onConn, runOn_zoom, Runtime.onWorld, loadQSet,
            henv.weaklyCanonical n t'.parseCnt] at h'
          have hend := hagree.1
          revert h h'
          generalize (runOn (loadQSetFrom cli _ con target 0 _ root.children) t.world).1 = r
            at hend ⊢
          generalize (runOn (loadQSetFrom cli _ con target 0 _ root.children) t'.world).1 = r'
            at hend ⊢
          intro h h'
          cases hend with
          | ok heq =>
              subst heq
              exact Except.ok.inj (h.symm.trans h')
          | error e e' =>
              exact (parseFileResult_error_ok h).trans (parseFileResult_error_ok h').symm

/-- Two calls of `parse_file` that both return give the same query set. -/
theorem parseFile_eq (henv : env.Steady) {set set' : GsqlQSet}
    (ht : IdleAt db start d₀ t.world) (ht' : IdleAt db start d₀ t'.world)
    (h : (runOn (parseFile env cli file con target) t).1 = .ok set)
    (h' : (runOn (parseFile env cli file con target) t').1 = .ok set') : set = set' := by
  rw [runOn_parseFile] at h h'
  change parseFileResult (runOn (parseFileBody env cli file con target) t).1 = .ok set at h
  change parseFileResult (runOn (parseFileBody env cli file con target) t').1 = .ok set' at h'
  have hexists' := henv.exists_eq file (t.parseCnt + 1) (t'.parseCnt + 1)
  cases hexists : env.exists (t.nextCall file) with
  | false =>
      obtain ⟨msg, hbody⟩ := parseFileBody_missing env cli con target hexists
      rw [hbody] at h
      cases h
  | true =>
      rw [parseFileBody_exists env cli con target hexists] at h
      rw [parseFileBody_exists env cli con target (hexists'.trans hexists),
        show env.parsed (t'.nextCall file) = env.parsed (t.nextCall file) from
          henv.parsed_eq file _ _] at h'
      cases hdoc : (env.parsed (t.nextCall file)).2 with
      | error e =>
          rw [hdoc] at h h'
          exact (parseFileResult_error_ok h).trans (parseFileResult_error_ok h').symm
      | ok doc =>
          rw [hdoc] at h h'
          have ht₁ : IdleAt db start d₀ (t.parsed env file).world := ht
          have ht₂ : IdleAt db start d₀ (t'.parsed env file).world := ht'
          exact parseFileRest_eq hcli hr henv hdoc ht₁ ht₂ h h'

end

theorem runOn_insertText_conn (text : Str) (t : ExecState σ) :
    ∃ u, runOn (insertText text) t = (.ok ⟨⟩, u) ∧ u.conn = t.conn := by
  rw [insertText, runOn_bind_ok (runOn_get t)]
  split
  · exact ⟨_, rfl, rfl⟩
  · exact ⟨_, rfl, rfl⟩

theorem insertText_closeHpp_closes {text : Str} {t u : ExecState σ} {r : Except Exc PUnit}
    (h : runOn (do insertText text; closeHpp) t = (r, u)) :
    u.hppFile.file = none ∧ u.conn = t.conn := by
  obtain ⟨v, hrun, hconn⟩ := runOn_insertText_conn text t
  rw [runOn_bind_ok hrun] at h
  obtain ⟨-, rfl⟩ := Prod.mk.inj h
  exact ⟨rfl, hconn⟩

theorem filesAfter_hppEvents (files : Str → Option Str) (path : Str) (before : Option Str)
    (ok : Bool) (text : Str) :
    filesAfter files (hppEvents path before ok (.ok text)) =
      Store.replay files (if ok then [(path, text)] else []) := by
  cases ok with
  | true => exact Store.replay_overwritten files path [] text []
  | false => rfl

theorem parseFile_keeps {r : Except Exc GsqlQSet} {u : ExecState σ}
    (h : runOn (parseFile env cli file con target) t = (r, u)) :
    u.files = t.files ∧ u.hppFile = t.hppFile := by
  rw [runOn_parseFile] at h
  obtain ⟨-, rfl⟩ := Prod.mk.inj h
  have hkeep := (keepsOutput_parseFileBody env cli file con target).output_eq t
  exact ⟨congrArg Prod.fst hkeep, congrArg (fun out => out.2.1) hkeep⟩

theorem runOn_onConn {α : Type} (m : Act (Runtime.ConnWorld σ) Exc α) (t : ExecState σ) :
    runOn (onConn m) t = ((runOn m t.conn).1, { t with conn := (runOn m t.conn).2 }) :=
  runOn_zoom _ _ m t

/-- One header that was written: the stream is closed again, and only the files changed. -/
theorem writeHpp_ok {outFolder : Str} {set : GsqlQSet}
    (h : runOn (writeHpp env outFolder file set) t = (.ok ⟨⟩, t')) :
    t'.hppFile.file = none ∧ t'.conn = t.conn ∧
      ∃ text, genFile set (env.ctime t.parseCnt) 0 = .ok text ∧
        t'.files = Store.replay t.files
          (if t.hppFile.file.isNone && env.openFile t.parseCnt (hppPath outFolder file) then
            [(hppPath outFolder file, text)] else []) := by
  obtain ⟨u, hrun, -, hfiles⟩ := writeHpp_spec env outFolder file set t
  rw [hrun] at h
  obtain ⟨htext, rfl⟩ := Prod.mk.inj h
  cases hgen : genFile set (env.ctime t.parseCnt) 0 with
  | error e =>
      rw [hgen] at htext
      cases htext
  | ok text =>
      rw [hgen, filesAfter_hppEvents] at hfiles
      have hgenerate := runOn_generate env (hppPath outFolder file) set
        (t.afterOpen (hppPath outFolder file)
          (t.hppFile.file.isNone && env.openFile t.parseCnt (hppPath outFolder file)))
      rw [show genFile set (env.ctime (t.afterOpen _ _).parseCnt) 0 = .ok text from hgen]
        at hgenerate
      rw [writeHpp, runOn_bind_ok (runOn_openHpp env _ t), runOn_bind_ok hgenerate] at hrun
      obtain ⟨hclosed, hconn⟩ := insertText_closeHpp_closes hrun
      exact ⟨hclosed, hconn, text, rfl, hfiles⟩

end Files

/-! ## The loop -/

/-- In some idle state the file is processed to this text. -/
def Generates (env : Env) (cli : Cli σ) (con : Handle) (db start : σ → D) (d₀ : D)
    (target : Rdbms) (file text : Str) : Prop :=
  ∃ (t : ExecState σ) (set : GsqlQSet) (n : Nat), IdleAt db start d₀ t.world ∧
    (runOn (parseFile env cli file con target) t).1 = .ok set ∧
    genFile set (env.ctime n) 0 = .ok text

/-- The headers of the files whose streams can be opened, with the given texts. -/
def headerWrites (env : Env) (outFolder : Str) (text : Str → Str) (listed : List Str) :
    List (Str × Str) :=
  (listed.filter fun file => env.openFile 0 (hppPath outFolder file)).map
    fun file => (hppPath outFolder file, text file)

theorem headerWrites_cons (env : Env) (outFolder : Str) (text : Str → Str) (file : Str)
    (rest : List Str) :
    headerWrites env outFolder text (file :: rest) =
      (if env.openFile 0 (hppPath outFolder file) then [(hppPath outFolder file, text file)]
        else []) ++ headerWrites env outFolder text rest := by
  unfold headerWrites
  rw [List.filter_cons]
  split
  · rfl
  · rfl

section Loop

variable {env : Env} {target : Rdbms} (hcli : Transactional cli con db start same)
  (henv : env.Steady)
include hcli henv

theorem Generates.unique {file text text' : Str}
    (hr : FileRollsBack env cli con db start target file)
    (h : Generates env cli con db start d₀ target file text)
    (h' : Generates env cli con db start d₀ target file text') : text = text' := by
  obtain ⟨t, set, n, ht, hset, htext⟩ := h
  obtain ⟨t', set', n', ht', hset', htext'⟩ := h'
  obtain rfl := parseFile_eq hcli hr henv ht ht' hset hset'
  rw [henv.ctime n n'] at htext'
  exact Except.ok.inj (htext.symm.trans htext')

/-- A loop that comes to its end has written the texts of the listed files in order. -/
theorem processList_files {p : CmdlineParameters} {text : Str → Str} {listed : List Str}
    (hr : ∀ file ∈ listed, FileRollsBack env cli con db start p.databaseType file)
    (htext : ∀ file ∈ listed, ∀ x,
      Generates env cli con db start d₀ p.databaseType file x → x = text file)
    {t t' : ExecState σ} (ht : IdleAt db start d₀ t.world) (hclosed : t.hppFile.file = none)
    (h : runOn (processList env cli p con listed) t = (.ok ⟨⟩, t')) :
    t'.files = Store.replay t.files (headerWrites env p.outFolder text listed) := by
  induction listed generalizing t with
  | nil =>
      obtain ⟨-, rfl⟩ := Prod.mk.inj h
      rfl
  | cons file rest ih =>
      obtain ⟨set, u, hparse, h⟩ := runOn_bind_eq_ok h
      obtain ⟨_, v, hwrite, h⟩ := runOn_bind_eq_ok h
      have hrest := fun f hf => hr f (List.mem_cons_of_mem file hf)
      have htextRest := fun f hf => htext f (List.mem_cons_of_mem file hf)
      have hu : IdleAt db start d₀ u.world := by
        have hidle := idleAt_parseFile hcli (hr file List.mem_cons_self) ht
        rw [hparse] at hidle
        exact hidle
      obtain ⟨hfiles, hstream⟩ := parseFile_keeps hparse
      obtain ⟨hclosed', hconn, x, hgen, hwritten⟩ := writeHpp_ok hwrite
      have hv : IdleAt db start d₀ v.world := by
        rw [ExecState.world, hconn]
        exact hu
      have hx : x = text file :=
        htext file List.mem_cons_self x ⟨t, set, u.parseCnt, ht, by rw [hparse], hgen⟩
      have hopen : (u.hppFile.file.isNone && env.openFile u.parseCnt (hppPath p.outFolder file)) =
          env.openFile 0 (hppPath p.outFolder file) := by
        rw [hstream, hclosed, henv.openFile 0]
        rfl
      rw [hopen, hx, hfiles] at hwritten
      rw [ih hrest htextRest hv hclosed' h, hwritten, headerWrites_cons, Store.replay_append]

end Loop

/-! ## Whole runs -/

theorem hppPath_nodup {outFolder : Str} {listed : List Str}
    (h : (listed.map Path.stem).Nodup) : (listed.map (hppPath outFolder)).Nodup := by
  rw [List.nodup_iff_pairwise_ne, List.pairwise_map] at h ⊢
  exact h.imp fun hne heq => hne (hppPath_eq_iff.mp heq)

theorem headerWrites_nodup {env : Env} {outFolder : Str} {text : Str → Str} {listed : List Str}
    (h : (listed.map Path.stem).Nodup) :
    ((headerWrites env outFolder text listed).map Prod.fst).Nodup := by
  unfold headerWrites
  rw [List.map_map]
  exact (hppPath_nodup h).sublist (List.filter_sublist.map _)

theorem processConnected_ok {env : Env} {p : CmdlineParameters} {t : ExecState σ} {n : Nat}
    (h : (runOn (processConnected env cli p con) t).1 = .ok n) :
    ∃ u, runOn (processList env cli p con p.qsqlList) t = (.ok ⟨⟩, u) ∧
      (runOn (processConnected env cli p con) t).2.files = u.files := by
  unfold processConnected at h ⊢
  by_cases hlang : p.lang ≠ .cpp
  · rw [if_pos hlang] at h
    cases h
  · rw [if_neg hlang] at h ⊢
    rcases hlist : runOn (processList env cli p con p.qsqlList) t with ⟨e | _, u⟩
    · rw [runOn_bind_error hlist] at h
      cases h
    · rw [runOn_bind_ok hlist]
      exact ⟨u, rfl, rfl⟩

/-- The header of a listed file after the writes: its text, where its stream can be opened. -/
theorem replay_headerWrites {env : Env} {outFolder : Str} {text : Str → Str} {listed : List Str}
    (h : (listed.map Path.stem).Nodup) {file : Str} (hfile : file ∈ listed)
    (files : Str → Option Str) :
    Store.replay files (headerWrites env outFolder text listed) (hppPath outFolder file) =
      if env.openFile 0 (hppPath outFolder file) then some (text file)
      else files (hppPath outFolder file) := by
  split
  · rename_i hopen
    exact Store.replay_of_mem (headerWrites_nodup h)
      (List.mem_map_of_mem (List.mem_filter.mpr ⟨hfile, hopen⟩)) files
  · rename_i hopen
    apply Store.replay_of_notMem
    intro hmem
    obtain ⟨w, hw, hpath⟩ := List.mem_map.mp hmem
    obtain ⟨f, hf, rfl⟩ := List.mem_map.mp hw
    change hppPath outFolder f = hppPath outFolder file at hpath
    exact hopen (hpath ▸ (List.mem_filter.mp hf).2)

/-- A run that succeeds opens a connection and comes to the end of the loop. -/
theorem processFiles_ok {env : Env} {p : CmdlineParameters} {t t' : ExecState σ}
    (h : runOn (processFiles env cli p) t = (.ok PSts.success.code, t')) :
    ∃ con conn parser u,
      runOn (Runtime.Connection.openConnection cli p.dbName [] []) t.conn = (.ok con, conn) ∧
        newParser env = .ok parser ∧
        runOn (processList env cli p con p.qsqlList) { t with parser := parser, conn := conn } =
          (.ok ⟨⟩, u) ∧
        t'.files = u.files := by
  obtain ⟨gram, t₁, hgram, h⟩ := runOn_bind_eq_ok h
  rw [runOn_fromResult] at hgram
  obtain ⟨-, rfl⟩ := Prod.mk.inj hgram
  cases gram with
  | false => cases (Prod.mk.inj h).1
  | true =>
      obtain ⟨parser, t₂, hparser, h⟩ := runOn_bind_eq_ok h
      rw [runOn_fromResult] at hparser
      obtain ⟨hnew, rfl⟩ := Prod.mk.inj hparser
      obtain ⟨_, t₃, hmodify, h⟩ := runOn_bind_eq_ok h
      obtain ⟨-, rfl⟩ := Prod.mk.inj hmodify
      obtain ⟨con, t₄, hopen, h⟩ := runOn_bind_eq_ok h
      rw [runOn_onConn] at hopen
      obtain ⟨hcon, rfl⟩ := Prod.mk.inj hopen
      obtain ⟨hend, houtput⟩ := runOn_withConnection cli (processConnected env cli p con) con
        { t with parser := parser, conn := (runOn (Runtime.Connection.openConnection cli p.dbName
          [] []) t.conn).2 }
      change runOn (withCleanup (processConnected env cli p con) (disconnect cli con)) _ = _ at h
      rw [h] at hend houtput
      obtain ⟨u, hlist, hfiles⟩ := processConnected_ok hend.symm
      exact ⟨con, _, parser, u, Prod.ext hcon rfl, hnew, hlist,
        (congrArg Prod.fst houtput).trans hfiles⟩

/-- What two runs from `t` need for their files not to disturb each other: the answers of the
surroundings are steady, no stream is open, and on the connection that is opened the driver
restores the database while every query of a listed file rolls back what it executes. -/
structure Undisturbed (env : Env) (cli : Cli σ) (dbName : Str) (target : Rdbms) (listed : List Str)
    (db start : σ → D) (same : List (Handle × Handle) → σ → σ → Prop) (t : ExecState σ) : Prop where
  steady : env.Steady
  closed : t.hppFile.file = none
  connected : ∀ con conn,
    runOn (Runtime.Connection.openConnection cli dbName [] []) t.conn = (.ok con, conn) →
      Transactional cli con db start same ∧ db conn.world.drv = start conn.world.drv ∧
        ∀ file ∈ listed, FileRollsBack env cli con db start target file

/-- After two undisturbed runs that differ in the list of files at most, list no stem twice and
both succeed, every file that both list has the same header, whatever else is listed and in which
order. The same files in another order leave the same contents of all files. -/
theorem headers_order_free (env : Env) (cli : Cli σ) (p p' : CmdlineParameters)
    (t : ExecState σ) (hp : p' = { p with qsqlList := p'.qsqlList })
    (hu : Undisturbed env cli p.dbName p.databaseType (p.qsqlList ++ p'.qsqlList) db start same t)
    (hl : (p.qsqlList.map Path.stem).Nodup) (hl' : (p'.qsqlList.map Path.stem).Nodup)
    (h : (runOn (processFiles env cli p) t).1 = .ok PSts.success.code)
    (h' : (runOn (processFiles env cli p') t).1 = .ok PSts.success.code) :
    let files := (runOn (processFiles env cli p) t).2.files
    let files' := (runOn (processFiles env cli p') t).2.files
    (∀ file ∈ p.qsqlList, file ∈ p'.qsqlList →
        files (hppPath p.outFolder file) = files' (hppPath p.outFolder file)) ∧
      (p.qsqlList.Perm p'.qsqlList → ∀ path, files path = files' path) := by
  intro files files'
  obtain ⟨_, _, l, _, _⟩ := p
  obtain ⟨dbName, outFolder, l', lang, target⟩ := p'
  obtain ⟨rfl, rfl, -, rfl, rfl⟩ := CmdlineParameters.mk.inj hp
  obtain ⟨con, conn, parser, u, hopen, hparser, hlist, hfiles⟩ := processFiles_ok (Prod.ext h rfl)
  obtain ⟨con', conn', parser', u', hopen', hparser', hlist', hfiles'⟩ :=
    processFiles_ok (Prod.ext h' rfl)
  obtain ⟨hcon, rfl⟩ := Prod.mk.inj (hopen.symm.trans hopen')
  obtain rfl := Except.ok.inj hcon
  obtain rfl := Except.ok.inj (hparser.symm.trans hparser')
  obtain ⟨hcli, hidle, hr⟩ := hu.connected con conn hopen
  -- one text for each file, since what a file generates does not depend on the state
  obtain ⟨text, htext⟩ : ∃ text : Str → Str, ∀ file ∈ l ++ l', ∀ x,
      Generates env cli con db start (start conn.world.drv) target file x → x = text file := by
    classical
    refine ⟨fun file => if hex : ∃ x, Generates env cli con db start (start conn.world.drv)
      target file x then hex.choose else [], fun file hfile x hx => ?_⟩
    have hex : ∃ x, Generates env cli con db start (start conn.world.drv) target file x :=
      ⟨x, hx⟩
    exact (hx.unique hcli hu.steady (hr file hfile) hex.choose_spec).trans (dif_pos hex).symm
  have hleft : u.files = Store.replay t.files (headerWrites env outFolder text l) :=
    processList_files (p := ⟨dbName, outFolder, l, lang, target⟩)
      (t := { t with parser := parser, conn := conn }) hcli hu.steady
      (fun f hf => hr f (List.mem_append_left l' hf))
      (fun f hf => htext f (List.mem_append_left l' hf)) ⟨hidle, rfl⟩ hu.closed hlist
  have hright : u'.files = Store.replay t.files (headerWrites env outFolder text l') :=
    processList_files (p := ⟨dbName, outFolder, l', lang, target⟩)
      (t := { t with parser := parser, conn := conn }) hcli hu.steady
      (fun f hf => hr f (List.mem_append_right l hf))
      (fun f hf => htext f (List.mem_append_right l hf)) ⟨hidle, rfl⟩ hu.closed hlist'
  rw [show files = _ from hfiles.trans hleft, show files' = _ from hfiles'.trans hright]
  constructor
  · intro file hfile hfile'
    rw [replay_headerWrites hl hfile, replay_headerWrites hl' hfile']
  · intro hperm path
    rw [Store.replay_perm (headerWrites_nodup hl) ((hperm.filter _).map _) t.files]
    rfl

end

/-! ## Two files that create tables -/

namespace TranDriver

/-- A prepared statement is described. -/
theorem bufAnswered {d : TranDriver} {h : Handle} (hd : d.prepared h = true)
    (bt : Runtime.BufType) : BufAnswered cli bt h d := by
  cases bt with
  | par => exact ⟨if_pos hd, trivial⟩
  | res => exact ⟨if_pos hd, rfl, ⟨.integer, .noNulls, rfl, rfl, by decide⟩, trivial⟩

theorem bufState_eq (bt : Runtime.BufType) (h : Handle) (d : TranDriver) :
    bufState cli bt h d = d := by
  cases bt with
  | par => rfl
  | res => rfl

/-- A query whose text can be prepared is rolled back. -/
theorem alwaysRollsBack {r : GsqlQ} (hsql : understands (Runtime.nts r.sql) = true) :
    AlwaysRollsBack cli 1 db start r := by
  have hprepared : ∀ (d : TranDriver) (h : Handle),
      (preparedState cli r h d).prepared h = true := by
    intro d h
    exact (Function.update_self h _ d.prepared).trans hsql
  intro d _ _ _ _ _
  refine ⟨rfl, ⟨.inl (if_pos hsql), bufAnswered (hprepared _ _) _, bufAnswered ?_ _⟩, .inl rfl⟩
  rw [bufState_eq]
  exact hprepared _ _

/-- A document with a query that needs a table. -/
def document : DomRoot where
  attrs := []
  children := [.element "q" [("id", "q")] [.element "sql" []
    [.element "prepare" [] [.text (.ok "create table t (a int)")], .text (.ok "select a from t")]]]

/-- A program before its first run, on a driver whose next handles are the environment and
connection number one. -/
def program : ExecState TranDriver where
  conn := .start { next := 0 }
  files _ := none

/-- The parameters for the listed files. -/
def parameters (listed : List Str) : CmdlineParameters where
  dbName := oneFile.dbName
  outFolder := oneFile.outFolder
  qsqlList := listed
  lang := oneFile.lang
  databaseType := oneFile.databaseType

theorem undisturbed (listed : List Str) :
    Undisturbed (Env.ofRoot document) cli "db" .db2 listed db start Same program where
  steady := ⟨fun _ _ _ => rfl, fun _ _ _ => rfl, fun _ _ _ => rfl, fun _ _ _ => rfl, fun _ _ => rfl⟩
  closed := rfl
  connected con conn h := by
    have hopen : (runOn (Runtime.Connection.openConnection cli "db" [] []) program.conn).1 =
      .ok 1 := rfl
    obtain rfl := Except.ok.inj (hopen.symm.trans (congrArg Prod.fst h))
    refine ⟨transactional, congrArg (fun r => r.2.world.drv.db = r.2.world.drv.start) h ▸ rfl, ?_⟩
    rintro file - n root hroot r ⟨attrs, children, ndx, ctx, c, hmem, hc, -, rfl⟩
    obtain rfl := Option.some.inj (Except.ok.inj hroot)
    obtain ⟨-, rfl, rfl⟩ := Dom.element.inj (List.mem_singleton.mp hmem)
    obtain rfl := Except.ok.inj hc
    exact alwaysRollsBack rfl

end TranDriver

/-- Two files, in one order and in the other. -/
theorem headers_order_free_two_files :
    let p := TranDriver.parameters ["a.xml".toList, "b.xml".toList]
    let p' := TranDriver.parameters ["b.xml".toList, "a.xml".toList]
    let files :=
      (runOn (processFiles (Env.ofRoot TranDriver.document) TranDriver.cli p)
        TranDriver.program).2.files
    let files' :=
      (runOn (processFiles (Env.ofRoot TranDriver.document) TranDriver.cli p')
        TranDriver.program).2.files
    (∀ file ∈ p.qsqlList, file ∈ p'.qsqlList →
        files (hppPath p.outFolder file) = files' (hppPath p.outFolder file)) ∧
      (p.qsqlList.Perm p'.qsqlList → ∀ path, files path = files' path) :=
  headers_order_free (Env.ofRoot TranDriver.document) TranDriver.cli
    (TranDriver.parameters ["a.xml".toList, "b.xml".toList])
    (TranDriver.parameters ["b.xml".toList, "a.xml".toList]) TranDriver.program rfl
    (TranDriver.undisturbed _) (by decide) (by decide) (by decide +kernel) (by decide +kernel)

end Dbgen3.Generator
