import Dbgen3.Runtime.World

/-!
# What the runtime assumes of the driver

The assumptions are stated over views of the driver state, so that any driver
with such views meets them. A small driver with one result set is given at the
end and shown to meet all of them.
-/

namespace Dbgen3.Runtime

variable {σ : Type}

/-- The calls the runtime makes on an allocated statement handle. -/
def CliCall.onStatement : CliCall → Prop
  | .setStmtAttr .. | .prepare .. | .bindParameter .. | .bindCol .. | .execute _
  | .fetchScroll .. => True
  | _ => False

/-- A numeric attribute holds the last value set on its handle until it is set again. -/
structure KeepsAttrs (cli : Cli σ) (attr : σ → Handle → StmtAttr → Int) : Prop where
  set : ∀ d h a v, (cli.call d (.setStmtAttr h a (.int v))).1.rc = sqlSuccess →
    attr (cli.call d (.setStmtAttr h a (.int v))).2 h a = v
  keep : ∀ d c h a, c.onStatement → (∀ v, c ≠ .setStmtAttr h a (.int v)) →
    attr (cli.call d c).2 h a = attr d h a

/-- What a bind call asks for: the data of one ordinal of a handle. -/
structure Binding where
  handle : Handle
  kind : BufType
  ndx : Int
  data : DataAddr
  deriving DecidableEq, Repr

def CliCall.binding : CliCall → Option Binding
  | .bindParameter h ndx _ _ _ _ data _ => some ⟨h, .par, ndx, data⟩
  | .bindCol h ndx _ data _ => some ⟨h, .res, ndx, data⟩
  | _ => none

/-- A binding is per handle and ordinal and is replaced only by a later bind call
for them. A bind call that fails may leave anything there. -/
structure KeepsBindings (cli : Cli σ) (bound : σ → Handle → BufType → Int → Option DataAddr) :
    Prop where
  bind : ∀ d c b, c.binding = some b → (cli.call d c).1.rc = sqlSuccess →
    bound (cli.call d c).2 b.handle b.kind b.ndx = some b.data
  keep : ∀ d c h k ndx, c.onStatement →
    (∀ b, c.binding = some b → ¬ (b.handle = h ∧ b.kind = k ∧ b.ndx = ndx)) →
    bound (cli.call d c).2 h k ndx = bound d h k ndx

/-! ## Fetching -/

/-- The parts of a driver state a fetch depends on: the numeric attributes, where
the number of fetched rows goes, the bindings and the rows still to fetch. -/
structure DriverView (σ : Type) where
  attr : σ → Handle → StmtAttr → Int
  rowsFetched : σ → Handle → Option BufId
  bound : σ → Handle → BufType → Int → Option DataAddr
  remaining : σ → Handle → List (List Cell)

/-- The writes that put row `i` into the bound columns; the first column is number one. -/
def rowWrites (col : Int → Option DataAddr) (i : Nat) (row : List Cell) : List MemWrite :=
  row.zipIdx.filterMap fun ck => (col (ck.2 + 1)).map fun data => .element data i ck.1

/-- The writes of one fetch: the rows in order, then their number. -/
def fetchWrites (col : Int → Option DataAddr) (counter : Option BufId) (rows : List (List Cell)) :
    List MemWrite :=
  rows.zipIdx.flatMap (fun ri => rowWrites col ri.2 ri.1) ++
    (counter.map fun b => .occupied b rows.length).toList

/-- The rows one fetch returns. -/
def DriverView.block (v : DriverView σ) (d : σ) (h : Handle) : List (List Cell) :=
  (v.remaining d h).take (v.attr d h .rowArraySize).toNat

/-- A driver on which every set-up call succeeds and whose fetches walk through
`rows`. A new statement handle starts with a row array of one. The `BufferLength` of
a binding is not looked at. -/
structure Fetches (cli : Cli σ) (v : DriverView σ) (rows : List (List Cell)) : Prop where
  attrs : KeepsAttrs cli v.attr
  succeeds : ∀ d c, (∀ h dir len, c ≠ .fetchScroll h dir len) →
    (cli.call d c).1.rc = sqlSuccess
  alloc : ∀ d dbc, v.attr (cli.call d (.allocHandle .stmt dbc)).2
    (cli.call d (.allocHandle .stmt dbc)).1.handle .rowArraySize = 1
  rowsFetched_set : ∀ d h b,
    v.rowsFetched (cli.call d (.setStmtAttr h .rowsFetchedPtr (.occupiedAddr b))).2 h = some b
  rowsFetched_keep : ∀ d c h, c.onStatement → (∀ a, c ≠ .setStmtAttr h .rowsFetchedPtr a) →
    v.rowsFetched (cli.call d c).2 h = v.rowsFetched d h
  bindings : KeepsBindings cli v.bound
  execute : ∀ d h, v.remaining (cli.call d (.execute h)).2 h = rows
  execute_writes : ∀ d h, ∀ m ∈ (cli.call d (.execute h)).1.writes,
    (∃ b n, m = .processed b n) ∨ ∃ b i n, m = .status b i n
  fetch_rc : ∀ d h len, (cli.call d (.fetchScroll h sqlFetchNext len)).1.rc =
    if v.remaining d h = [] then sqlNoData else sqlSuccess
  fetch_writes : ∀ d h len, (cli.call d (.fetchScroll h sqlFetchNext len)).1.writes =
    fetchWrites (v.bound d h .res) (v.rowsFetched d h) (v.block d h)
  fetch_remaining : ∀ d h len, v.remaining (cli.call d (.fetchScroll h sqlFetchNext len)).2 h =
    (v.remaining d h).drop (v.attr d h .rowArraySize).toNat
  diag : ∀ d h, ∀ r ∈ cli.diag d .stmt h, r = .noData ∨ ∃ x, r = .success x

/-! ## A driver that meets the assumptions -/

/-- The state of the driver: `next` is the next statement handle. -/
structure RefDriver where
  attr : Handle → StmtAttr → Int := fun _ _ => 1
  rowsFetched : Handle → Option BufId := fun _ => none
  col : Handle → Int → Option DataAddr := fun _ _ => none
  par : Handle → Int → Option DataAddr := fun _ _ => none
  remaining : Handle → List (List Cell) := fun _ => []
  next : Handle := 1

namespace RefDriver

def bound (d : RefDriver) (h : Handle) : BufType → Int → Option DataAddr
  | .par => d.par h
  | .res => d.col h

def view : DriverView RefDriver := ⟨attr, rowsFetched, bound, remaining⟩

/-- The answer to one call; `rows` is the result set of every statement. -/
def call (rows : List (List Cell)) (d : RefDriver) : CliCall → Reply × RefDriver
  | .allocHandle _ _ =>
      ({ rc := sqlSuccess, handle := d.next },
        { d with
          attr := Function.update d.attr d.next fun _ => 1
          next := d.next + 1 })
  | .setStmtAttr h a (.int n) =>
      ({ rc := sqlSuccess },
        { d with attr := Function.update d.attr h (Function.update (d.attr h) a n) })
  | .setStmtAttr h .rowsFetchedPtr (.occupiedAddr b) =>
      ({ rc := sqlSuccess }, { d with rowsFetched := Function.update d.rowsFetched h (some b) })
  | .bindCol h ndx _ data _ =>
      ({ rc := sqlSuccess },
        { d with col := Function.update d.col h (Function.update (d.col h) ndx (some data)) })
  | .bindParameter h ndx _ _ _ _ data _ =>
      ({ rc := sqlSuccess },
        { d with par := Function.update d.par h (Function.update (d.par h) ndx (some data)) })
  | .execute h =>
      ({ rc := sqlSuccess }, { d with remaining := Function.update d.remaining h rows })
  | .fetchScroll h _ _ =>
      ({ rc := if d.remaining h = [] then sqlNoData else sqlSuccess
         writes := fetchWrites (d.col h) (d.rowsFetched h) (view.block d h) },
        { d with remaining := Function.update d.remaining h
                  ((d.remaining h).drop (d.attr h .rowArraySize).toNat) })
  | _ => ({ rc := sqlSuccess }, d)

/-- The driver with result set `rows` and no diagnostic records. -/
def cli (rows : List (List Cell)) : Cli RefDriver := ⟨call rows, fun _ _ _ => []⟩

variable (rows : List (List Cell))

theorem keepsAttrs : KeepsAttrs (cli rows) attr where
  set d h a v _ := by simp [cli, call]
  keep d c h a hc hne := by
    cases c with
    | setStmtAttr h' a' v =>
        cases v with
        | int n =>
            by_cases hh : h = h'
            · subst hh
              have ha : a ≠ a' := by
                rintro rfl
                exact hne n rfl
              simp [cli, call, ha]
            · simp [cli, call, hh]
        | occupiedAddr b => cases a' <;> rfl
        | _ => rfl
    | allocHandle => exact hc.elim
    | _ => rfl

theorem keepsBindings : KeepsBindings (cli rows) bound where
  bind d c b hb _ := by
    cases c with
    | bindParameter h ndx ct dt cs dec data len =>
        obtain rfl := Option.some.inj hb
        simp [cli, call, bound]
    | bindCol h ndx ct data len =>
        obtain rfl := Option.some.inj hb
        simp [cli, call, bound]
    | _ => cases hb
  keep d c h k ndx hc hne := by
    cases c with
    | bindParameter h' ndx' ct dt cs dec data len =>
        have hne := hne _ rfl
        cases k with
        | res => rfl
        | par =>
            by_cases hh : h = h'
            · subst hh
              have hn : ndx ≠ ndx' := fun heq => hne ⟨rfl, rfl, heq.symm⟩
              simp [cli, call, bound, hn]
            · simp [cli, call, bound, hh]
    | bindCol h' ndx' ct data len =>
        have hne := hne _ rfl
        cases k with
        | par => rfl
        | res =>
            by_cases hh : h = h'
            · subst hh
              have hn : ndx ≠ ndx' := fun heq => hne ⟨rfl, rfl, heq.symm⟩
              simp [cli, call, bound, hn]
            · simp [cli, call, bound, hh]
    | setStmtAttr h' a v =>
        cases v with
        | occupiedAddr b => cases a <;> cases k <;> rfl
        | _ => cases k <;> rfl
    | allocHandle => exact hc.elim
    | _ => cases k <;> rfl

theorem fetches : Fetches (cli rows) view rows where
  attrs := keepsAttrs rows
  succeeds d c hc := by
    cases c with
    | fetchScroll h dir len => exact absurd rfl (hc h dir len)
    | setStmtAttr h a v =>
        cases v with
        | occupiedAddr b => cases a <;> rfl
        | _ => rfl
    | _ => rfl
  alloc d dbc := by simp [cli, call, view]
  rowsFetched_set d h b := by simp [cli, call, view]
  rowsFetched_keep d c h hc hne := by
    cases c with
    | setStmtAttr h' a v =>
        cases v with
        | occupiedAddr b =>
            cases a with
            | rowsFetchedPtr =>
                have hh : h ≠ h' := by
                  rintro rfl
                  exact hne _ rfl
                simp [cli, call, view, hh]
            | _ => rfl
        | _ => rfl
    | allocHandle => exact hc.elim
    | _ => rfl
  bindings := keepsBindings rows
  execute d h := by simp [cli, call, view]
  execute_writes d h m hm := by simp [cli, call] at hm
  fetch_rc d h len := rfl
  fetch_writes d h len := rfl
  fetch_remaining d h len := by simp [cli, call, view]
  diag d h r hr := by simp [cli] at hr

end RefDriver

end Dbgen3.Runtime
