import Dbgen3.Generator.FileOrder
import Dbgen3.Generator.Main
import Dbgen3.Runtime.Opening

/-!
# The database behind a run

The prepare texts of a document are executed on the database, inside a
transaction that the generator never commits. A text is executed only on a
connection whose automatic commit was switched off, so whatever ends the run, the
committed data are those it started with.
-/

namespace Dbgen3.Generator

open Act
open Dbgen3.Runtime (AnyChange CallStep Cli CliCall ConnWorld Extends Handle World
  extends_of_chain sqlSuccess view_eq_of_chain)
open Relation (ReflTransGen)

/-- A call that commits. -/
def Commits : CliCall → Prop
  | .endTran _ .commit => True
  | _ => False

/-- A call that opens a connection. -/
def Connects : CliCall → Prop
  | .connect .. => True
  | _ => False

/-- A call that runs a statement. -/
def RunsStatement : CliCall → Prop
  | .execDirect .. | .execute _ => True
  | _ => False

/-- What ODBC says of committed data. `auto d h` says that connection `h` commits every
statement by itself, as a connection does until that is switched off. -/
structure Durable {σ D : Type} (cli : Cli σ) (committed : σ → D) (auto : σ → Handle → Prop) :
    Prop where
  keeps : ∀ d c, ¬ Commits c → (RunsStatement c → ∀ h, ¬ auto d h) →
    committed (cli.call d c).2 = committed d
  connect : ∀ d h db us pw x, auto (cli.call d (.connect h db us pw)).2 x → x = h ∨ auto d x
  off : ∀ d h, (cli.call d (.setConnectAttr h)).1.rc = sqlSuccess →
    ¬ auto (cli.call d (.setConnectAttr h)).2 h
  other : ∀ d c x, ¬ Connects c → auto (cli.call d c).2 x → auto d x

section

variable {σ D : Type} {cli : Cli σ} {committed : σ → D} {auto : σ → Handle → Prop}

/-! ## Chains of calls -/

section Chains

variable {P : CliCall → Prop} {H : Runtime.Heap → Runtime.Heap → Prop} {w w' : World σ}

/-- The committed data are the same, and the calls made in between commit nothing. -/
structure Uncommitted (committed : σ → D) (w w' : World σ) : Prop where
  committed_eq : committed w'.drv = committed w.drv
  calls : Extends (fun c => ¬ Commits c) w w'

theorem Uncommitted.refl (w : World σ) : Uncommitted committed w w := ⟨rfl, .refl w⟩

theorem Uncommitted.trans {w'' : World σ} (h : Uncommitted committed w w')
    (h' : Uncommitted committed w' w'') : Uncommitted committed w w'' :=
  ⟨h'.committed_eq.trans h.committed_eq, h.calls.trans h'.calls⟩

/-- Calls that run no statement and commit nothing. -/
theorem Durable.uncommitted_of_chain (hcli : Durable cli committed auto)
    (hP : ∀ c, P c → ¬ Commits c ∧ ¬ RunsStatement c)
    (h : ReflTransGen (CallStep cli P H) w w') : Uncommitted committed w w' where
  committed_eq := view_eq_of_chain
    (fun d c hc => hcli.keeps d c (hP c hc).1 fun hr => absurd hr (hP c hc).2) h
  calls := by
    obtain ⟨new, htrace, hcalls⟩ := extends_of_chain h
    exact ⟨new, htrace, fun e he => (hP _ (hcalls e he)).1⟩

/-- No connection commits by itself: calls that open none leave it so. -/
theorem Durable.noAuto_of_chain (hcli : Durable cli committed auto) (hP : ∀ c, P c → ¬ Connects c)
    (hauto : ∀ x, ¬ auto w.drv x) (h : ReflTransGen (CallStep cli P H) w w') :
    ∀ x, ¬ auto w'.drv x := by
  induction h with
  | refl => exact hauto
  | tail _ hstep ih =>
      obtain ⟨hdrv, -⟩ | ⟨c, hc, hdrv, -⟩ := hstep.drv_trace
      · rw [hdrv]
        exact ih
      · rw [hdrv]
        exact fun x hx => ih x (hcli.other _ c x (hP c hc) hx)

/-- Then statements can be run as well. -/
theorem Durable.uncommitted_of_noAuto (hcli : Durable cli committed auto)
    (hP : ∀ c, P c → ¬ Commits c ∧ ¬ Connects c) (hauto : ∀ x, ¬ auto w.drv x)
    (h : ReflTransGen (CallStep cli P H) w w') : Uncommitted committed w w' := by
  induction h with
  | refl => exact .refl w
  | @tail b c hchain hstep ih =>
      have hb := hcli.noAuto_of_chain (fun c hc => (hP c hc).2) hauto hchain
      refine ih.trans ⟨?_, ?_⟩
      · obtain ⟨hdrv, -⟩ | ⟨c, hc, hdrv, -⟩ := hstep.drv_trace
        · rw [hdrv]
        · rw [hdrv]
          exact hcli.keeps _ c (hP c hc).1 fun _ => hb
      · exact extends_of_chain
          (.single (hstep.mono (fun c hc => (hP c hc).1) fun _ _ h => h))

end Chains

/-! ## Loading the files -/

theorem describes_not {con : Handle} {c : CliCall} (h : Describes con c) :
    ¬ Commits c ∧ ¬ Connects c := by
  cases h with
  | quiet h =>
      cases c with
      | endTran _ how => exact absurd h id
      | connect _ _ _ _ => exact absurd h id
      | _ => exact ⟨id, id⟩
  | execDirect _ _ => exact ⟨id, id⟩
  | rollback => exact ⟨id, id⟩

section Loading

variable {con : Handle} {target : Rdbms}

theorem calls_loadQ (attrs : Attrs) (children : List Dom) (ndx : Nat) (ctx : List Str) :
    Within (CallStep cli (Describes con) AnyChange)
      (loadQ cli attrs children ndx ctx con target) := by
  rw [loadQ_eq]
  refine (within_fromResult _).bind fun c => Within.ite ?_ (within_pure _)
  exact calls_loadQSqlsetFromDb _

/-- Loading a document makes the calls of its descriptions. -/
theorem calls_loadQSetFrom (ctx : List Str) (nodes : List Dom) (qNdx : Nat) (set : GsqlQSet) :
    Within (CallStep cli (Describes con) AnyChange)
      (loadQSetFrom cli ctx con target qNdx set nodes) := by
  induction nodes generalizing qNdx set with
  | nil => exact within_pure _
  | cons n rest ih =>
      obtain ⟨attrs, children, rfl⟩ | ⟨attrs, children, rfl⟩ | hskip := n.hdr_or_q_or_skipped
      · rw [loadQSetFrom_hdr]
        exact (within_fromResult _).bind fun header => ih qNdx _
      · rw [loadQSetFrom_q]
        refine (calls_loadQ attrs children _ ctx).bind fun q => Within.ite (within_throw _) ?_
        exact ih (qNdx + 1) _
      · rw [loadQSetFrom_skipped hskip]
        exact ih qNdx set

/-- The world between two states is changed by a description only. -/
def DescribesWorld (cli : Cli σ) (con : Handle) (t t' : ExecState σ) : Prop :=
  ReflTransGen (CallStep cli (Describes con) AnyChange) t.world t'.world

theorem describesWorld_of_eq {t t' : ExecState σ} (h : t'.world = t.world) :
    DescribesWorld cli con t t' := by
  unfold DescribesWorld
  rw [h]

theorem DescribesWorld.of_chain {t t' : ExecState σ}
    (h : ReflTransGen (DescribesWorld cli con) t t') : DescribesWorld cli con t t' := by
  induction h with
  | refl => exact .refl
  | tail _ hstep ih => exact ih.trans hstep

theorem calls_parseFile (env : Env) (file : Str) :
    Within (DescribesWorld cli con) (parseFile env cli file con target) := by
  have hparse : ∀ fn, Within (DescribesWorld cli con)
      (parseURI env fn : Act (ExecState σ) Exc (Option DomRoot)) := by
    intro fn
    refine within_get.bind fun t => (within_modify fun _ => ?_).bind fun _ => within_fromResult _
    exact describesWorld_of_eq rfl
  have hbody : Within (DescribesWorld cli con) (parseFileBody env cli file con target) := by
    refine (within_modify fun _ => ?_).bind fun _ => within_get.bind fun t =>
      Within.ite ?_ (within_throw _)
    · exact describesWorld_of_eq rfl
    · refine (hparse _).bind fun doc => within_get.bind fun t => Within.ite ?_ (within_throw _)
      cases doc with
      | none => exact within_throw _
      | some root =>
          intro t
          refine .single ?_
          unfold DescribesWorld
          simp only [onConn, Runtime.onWorld, runOn_zoom]
          exact calls_loadQSetFrom _ _ _ _ t.world
  have hnote : ∀ e, Within (DescribesWorld cli con) (note e : Act (ExecState σ) Exc PUnit) :=
    fun e => within_modify fun _ => describesWorld_of_eq rfl
  refine Within.orElse (hbody.bind fun set => (hnote _).bind fun _ => within_pure _) fun e => ?_
  refine (hnote _).bind fun _ => ?_
  rw [parseFileHandler_eq]
  exact within_fromResult _

theorem calls_writeHpp (env : Env) (outFolder file : Str) (set : GsqlQSet) :
    Within (DescribesWorld cli con)
      (writeHpp env outFolder file set : Act (ExecState σ) Exc PUnit) := by
  have hnote : ∀ e, Within (DescribesWorld cli con) (note e : Act (ExecState σ) Exc PUnit) :=
    fun e => within_modify fun _ => describesWorld_of_eq rfl
  have hopen : Within (DescribesWorld cli con)
      (openHpp env (hppPath outFolder file) : Act (ExecState σ) Exc PUnit) :=
    within_get.bind fun t => (hnote _).bind fun _ =>
      Within.ite (within_modify fun _ => describesWorld_of_eq rfl)
        (within_modify fun _ => describesWorld_of_eq rfl)
  have hinsert : ∀ text, Within (DescribesWorld cli con)
      (insertText text : Act (ExecState σ) Exc PUnit) := by
    intro text
    refine within_get.bind fun t => ?_
    split
    · exact (hnote _).bind fun _ => within_modify fun _ => describesWorld_of_eq rfl
    · exact within_modify fun _ => describesWorld_of_eq rfl
  refine hopen.bind fun _ => Within.bind ?_ fun text => (hinsert text).bind fun _ =>
    within_modify fun _ => describesWorld_of_eq rfl
  exact within_get.bind fun t => (hnote _).bind fun _ => within_fromResult _

theorem calls_processList (env : Env) (p : CmdlineParameters) (listed : List Str) :
    Within (DescribesWorld cli con) (processList env cli p con listed) := by
  induction listed with
  | nil => exact within_pure _
  | cons file rest ih =>
      exact (calls_parseFile env file).bind fun set =>
        (calls_writeHpp env p.outFolder file set).bind fun _ => ih

end Loading

/-! ## Whole runs -/

section Runs

variable {t : ExecState σ}

theorem opens_not {c : CliCall} (h : c.opens) : ¬ Commits c ∧ ¬ RunsStatement c := by
  cases c with
  | endTran _ how => exact absurd h id
  | execDirect _ _ => exact absurd h id
  | execute _ => exact absurd h id
  | _ => exact ⟨id, id⟩

/-- Closing a connection commits nothing. -/
theorem Durable.uncommitted_closed (hcli : Durable cli committed auto) (c : ConnWorld σ)
    (h : Handle) : Uncommitted committed c.world (c.closed cli h).world := by
  have hissue : ∀ (w : World σ) (call : CliCall), ¬ Commits call → ¬ RunsStatement call →
      Uncommitted committed w (w.issue cli call) := fun w call h₁ h₂ =>
    hcli.uncommitted_of_chain (P := fun c => ¬ Commits c ∧ ¬ RunsStatement c) (H := AnyChange)
      (fun c hc => hc) (.single (.call ⟨h₁, h₂⟩))
  unfold ConnWorld.closed ConnWorld.dropped
  split
  · exact ((hissue _ (.disconnect h) id id).trans (hissue _ (.freeHandle .dbc h) id id)).trans
      (hissue _ (.freeHandle .env _) id id)
  · exact hissue _ (.freeHandle .env _) id id

/-- Opening a connection commits nothing, and a connection that was opened does not commit by
itself. -/
theorem Durable.uncommitted_openConnection (hcli : Durable cli committed auto)
    (database user password : Str) (c : ConnWorld σ) (hauto : ∀ x, ¬ auto c.world.drv x) :
    let r := runOn (Runtime.Connection.openConnection cli database user password) c
    Uncommitted committed c.world r.2.world ∧
      ∀ con, r.1 = .ok con → ∀ x, ¬ auto r.2.world.drv x := by
  intro r
  have hr : r = _ := Runtime.Connection.runOn_openConnection database user password c
  rw [hr]
  cases hopening : c.opening cli database user password with
  | error f =>
      refine ⟨?_, nofun⟩
      have hreached := hcli.uncommitted_of_chain (fun _ => opens_not)
        (Runtime.opens_fails (ConnWorld.opening_error hopening))
      change Uncommitted committed c.world (f.left cli).world
      unfold Runtime.Failure.left
      split
      · exact hreached.trans (hcli.uncommitted_closed _ _)
      · exact hreached
  | ok opened =>
      obtain ⟨con, c'⟩ := opened
      refine ⟨hcli.uncommitted_of_chain (fun _ => opens_not) (Runtime.opens_opening hopening), ?_⟩
      rintro con' - x hx
      obtain ⟨u, hu, -, -, hrc, rfl, rfl⟩ := ConnWorld.opening_ok hopening
      -- up to `SQLConnect` no connection commits by itself, and then only the new one does
      have henv : ∀ {c' : ConnWorld σ}, c.withEnvironment cli = .ok c' → ∀ x,
          ¬ auto c'.world.drv x := by
        intro c' h
        obtain ⟨-, rfl⟩ | ⟨-, -, rfl⟩ := ConnWorld.withEnvironment_ok h
        · exact hauto
        · exact fun x hx => hauto x (hcli.other _ (.allocHandle .env 0) x id hx)
      obtain ⟨t₁, ht₁, -, rfl⟩ := ConnWorld.requesting_ok hu
      have hne := hcli.off _ _ hrc
      have hconnected := hcli.other _ (.setConnectAttr _) x id hx
      obtain ⟨d, us, pw, hcall⟩ := ConnWorld.connectCall_eq
        ((t₁.issue cli (.setEnvAttr t₁.henv)).newHandle cli) database user password
      unfold ConnWorld.connected at hconnected
      rw [hcall] at hconnected
      rcases hcli.connect _ _ d us pw x hconnected with rfl | hallocated
      · exact hne hx
      · have hset := hcli.other _ (.allocHandle .dbc _) x id hallocated
        exact henv ht₁ x (hcli.other _ (.setEnvAttr _) x id hset)

variable (committed auto) in
/-- Started where no connection commits by itself, the computation commits nothing, and it
does not end normally where one does. -/
def LeavesCommitted {α : Type} (m : Act (ExecState σ) Exc α) : Prop :=
  ∀ t, (∀ x, ¬ auto t.world.drv x) → Uncommitted committed t.world (runOn m t).2.world ∧
    ∀ a, (runOn m t).1 = .ok a → ∀ x, ¬ auto (runOn m t).2.world.drv x

theorem LeavesCommitted.bind {α β : Type} {m : Act (ExecState σ) Exc α}
    {f : α → Act (ExecState σ) Exc β} (hm : LeavesCommitted committed auto m)
    (hf : ∀ a, LeavesCommitted committed auto (f a)) :
    LeavesCommitted committed auto (m >>= f) := by
  intro t ht
  obtain ⟨hfirst, hauto⟩ := hm t ht
  rcases hr : runOn m t with ⟨e | a, u⟩
  · rw [hr] at hfirst
    rw [runOn_bind_error hr]
    exact ⟨hfirst, nofun⟩
  · rw [hr] at hfirst hauto
    rw [runOn_bind_ok hr]
    obtain ⟨hsecond, hauto'⟩ := hf a u (hauto a rfl)
    exact ⟨hfirst.trans hsecond, hauto'⟩

theorem leavesCommitted_of_world {α : Type} {m : Act (ExecState σ) Exc α}
    (h : ∀ t, (runOn m t).2.world = t.world) : LeavesCommitted committed auto m := by
  intro t ht
  rw [h t]
  exact ⟨.refl _, fun _ _ => ht⟩

theorem Durable.leavesCommitted_of_calls (hcli : Durable cli committed auto) {con : Handle}
    {α : Type} {m : Act (ExecState σ) Exc α} (hm : Within (DescribesWorld cli con) m) :
    LeavesCommitted committed auto m := by
  intro t ht
  have hchain := DescribesWorld.of_chain (hm t)
  exact ⟨hcli.uncommitted_of_noAuto (fun _ => describes_not) ht hchain,
    fun _ _ => hcli.noAuto_of_chain (fun _ hc => (describes_not hc).2) ht hchain⟩

theorem Durable.leavesCommitted_openConnection (hcli : Durable cli committed auto)
    (database : Str) :
    LeavesCommitted committed auto
      (onConn (Runtime.Connection.openConnection cli database [] [])) := by
  intro t ht
  obtain ⟨huncommitted, hauto⟩ := hcli.uncommitted_openConnection database [] [] t.conn ht
  unfold onConn
  rw [runOn_zoom]
  exact ⟨huncommitted, hauto⟩

/-- A close keeps what the computation before it kept. -/
theorem Durable.leavesCommitted_withConnection (hcli : Durable cli committed auto) {α : Type}
    {m : Act (ExecState σ) Exc α} (hm : LeavesCommitted committed auto m) (con : Handle) :
    LeavesCommitted committed auto (withCleanup m (disconnect cli con)) := by
  intro t ht
  obtain ⟨huncommitted, hauto⟩ := hm t ht
  have hclose : runOn (disconnect cli con) (runOn m t).2 =
      (.ok ⟨⟩, { (runOn m t).2 with conn := (runOn m t).2.conn.closed cli con }) := by
    unfold disconnect onConn
    rw [runOn_bind, runOn_zoom, Runtime.Connection.runOn_closeConnection]
    rfl
  rw [runOn_withCleanup, hclose]
  refine ⟨huncommitted.trans (hcli.uncommitted_closed _ con), fun a ha => ?_⟩
  have hchain : ReflTransGen (CallStep cli (fun c => ¬ Connects c) AnyChange)
      (runOn m t).2.world ((runOn m t).2.conn.closed cli con).world := by
    unfold ConnWorld.closed ConnWorld.dropped
    split
    · exact ((ReflTransGen.single (.call (c := .disconnect con) id)).tail
        (.call (c := .freeHandle .dbc con) id)).tail (.call (c := .freeHandle .env _) id)
    · exact .single (.call (c := .freeHandle .env _) id)
  exact hcli.noAuto_of_chain (fun _ hc => hc) (hauto a ha) hchain

theorem Durable.leavesCommitted_processFiles (hcli : Durable cli committed auto) (env : Env)
    (p : CmdlineParameters) : LeavesCommitted committed auto (processFiles env cli p) := by
  have hworld : ∀ {α : Type} (x : Except Exc α),
      LeavesCommitted committed auto (fromResult x : Act (ExecState σ) Exc α) := fun x =>
    leavesCommitted_of_world fun t => congrArg (fun r => r.2.world) (runOn_fromResult x t)
  refine (hworld _).bind fun gram => ?_
  cases gram with
  | false => exact leavesCommitted_of_world fun t => rfl
  | true =>
      refine (hworld _).bind fun parser => ?_
      refine (leavesCommitted_of_world fun t => rfl).bind fun _ => ?_
      refine (hcli.leavesCommitted_openConnection p.dbName).bind fun con => ?_
      refine hcli.leavesCommitted_withConnection ?_ con
      unfold processConnected
      split
      · exact leavesCommitted_of_world fun t => rfl
      · exact (hcli.leavesCommitted_of_calls (calls_processList env p p.qsqlList)).bind fun _ =>
          leavesCommitted_of_world fun t => rfl

/-- However a run of the program ends, no call of it commits, and the committed data are those
it started with. -/
theorem main_keeps_committed (hcli : Durable cli committed auto) (env : ProgramEnv)
    (flags : Flags) (argv : List Str) (t : ExecState σ) (hauto : ∀ x, ¬ auto t.world.drv x) :
    Uncommitted committed t.world (runOn (main env cli flags argv) t).2.world := by
  have hexecutor : LeavesCommitted committed auto
      (runExecutor env cli (CommandLine.new flags argv).toCmdlineParameters) := by
    refine (leavesCommitted_of_world fun t => ?_).bind fun _ =>
      (leavesCommitted_of_world fun t => rfl).bind fun _ => fun t ht => ?_
    · rw [runOn_fromResult]
    · have h := hcli.leavesCommitted_processFiles env.toEnv
        (CommandLine.new flags argv).toCmdlineParameters t ht
      obtain ⟨u, hclose, -, -, hconn⟩ := runOn_closeExecutor
        (runOn (processFiles env.toEnv cli (CommandLine.new flags argv).toCmdlineParameters) t).2
      rw [runOn_withCleanup, hclose]
      have hworld : u.world = _ := congrArg ConnWorld.world hconn
      rw [hworld]
      exact h
  by_cases hcheck : (CommandLine.new flags argv).checkParameters env.folderExists = .success
  · by_cases hdisplay : flags.grammar = true ∨ flags.types = true
    · rw [runOn_main_of_display env cli flags argv t hdisplay]
      exact .refl _
    · rw [not_or, Bool.not_eq_true, Bool.not_eq_true] at hdisplay
      rw [runOn_main_of_checked env cli flags argv t hdisplay.1 hdisplay.2 hcheck]
      exact (hexecutor t hauto).1
  · rw [runOn_main_of_refused env cli flags argv t hcheck]
    exact .refl _

end Runs

end

/-! ## A driver that commits by itself -/

/-- A driver that keeps the committed texts and those of the open transaction, and the
connection that commits by itself. -/
structure AutoDriver where
  committed : List Str := []
  pending : List Str := []
  auto : Option Handle := none

namespace AutoDriver

/-- The answer to one call. -/
def call (d : AutoDriver) : CliCall → Runtime.Reply × AutoDriver
  | .allocHandle _ _ => ({ rc := sqlSuccess, handle := 1 }, d)
  | .connect h _ _ _ => ({ rc := sqlSuccess }, { d with auto := some h })
  | .setConnectAttr h =>
      ({ rc := sqlSuccess }, { d with auto := if d.auto = some h then none else d.auto })
  | .execDirect _ sql =>
      ({ rc := sqlSuccess },
        match d.auto with
        | some _ => { d with committed := d.committed ++ [sql] }
        | none => { d with pending := d.pending ++ [sql] })
  | .endTran _ .commit =>
      ({ rc := sqlSuccess }, { d with committed := d.committed ++ d.pending, pending := [] })
  | .endTran _ .rollback => ({ rc := sqlSuccess }, { d with pending := [] })
  | _ => ({ rc := sqlSuccess }, d)

def cli : Cli AutoDriver := ⟨call, fun _ _ _ => []⟩

theorem durable : Durable cli committed fun d h => d.auto = some h where
  keeps d c hcommits hauto := by
    cases c with
    | endTran h how =>
        cases how with
        | commit => exact absurd trivial hcommits
        | rollback => rfl
    | execDirect h sql =>
        cases hd : d.auto with
        | none =>
            simp only [cli, call, hd]
        | some x => exact absurd hd (hauto trivial x)
    | _ => rfl
  connect d h db us pw x hx := .inl (Option.some.inj hx).symm
  off d h _ := by
    change ¬ (if d.auto = some h then none else d.auto) = some h
    split
    · exact nofun
    · assumption
  other d c x hc hx := by
    cases c with
    | connect h db us pw => exact absurd trivial hc
    | setConnectAttr h =>
        change (if d.auto = some h then none else d.auto) = some x at hx
        split at hx
        · cases hx
        · exact hx
    | execDirect h sql =>
        cases hd : d.auto with
        | none =>
            simp only [cli, call, hd] at hx
            exact absurd hx nofun
        | some y =>
            simp only [cli, call, hd] at hx
            exact hx
    | endTran h how => cases how <;> exact hx
    | _ => exact hx

/-- A program before its first run. -/
def program : ExecState AutoDriver where
  conn := { world := .start {} }
  files _ := none

end AutoDriver

/-- A document that creates a table. -/
theorem main_keeps_committed_table :
    Uncommitted AutoDriver.committed AutoDriver.program.world
      (runOn (main { Env.ofRoot TranDriver.document with } AutoDriver.cli { dbName := "db" }
        ["dbgen3", "a.xml"]) AutoDriver.program).2.world :=
  main_keeps_committed AutoDriver.durable { Env.ofRoot TranDriver.document with }
    { dbName := "db" } ["dbgen3", "a.xml"] AutoDriver.program nofun

end Dbgen3.Generator
