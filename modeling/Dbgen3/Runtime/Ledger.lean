import Dbgen3.Runtime.Calls
import Dbgen3.Runtime.Settled

/-!
# Handles that were given up

The calls made so far say which handles have been given up and how often the
counter went up and down. A call keeps the handles of the live objects as long
as it frees none of them and disconnects none of their connections.
-/

namespace Dbgen3.Runtime

open ConnWorld
open Relation (ReflTransGen)

namespace Books

variable {b : Books} {c : CliCall} {r : Reply} {h : Handle}

theorem mem_dbcs_record (hh : h ∈ b.dbcs) (hc : r.Accepted → c ≠ .freeHandle .dbc h) :
    h ∈ (b.record c r).dbcs := by
  unfold record
  split
  · next ha =>
    cases c with
    | allocHandle type _ => cases type <;> simp [enter, hh]
    | freeHandle type x => cases type <;> simp_all [enter, eq_comm]
    | _ => exact hh
  · exact hh

theorem mem_envs_record (hh : h ∈ b.envs) (hc : r.Accepted → c ≠ .freeHandle .env h) :
    h ∈ (b.record c r).envs := by
  unfold record
  split
  · next ha =>
    cases c with
    | allocHandle type _ => cases type <;> simp [enter, hh]
    | freeHandle type x => cases type <;> simp_all [enter, eq_comm]
    | _ => exact hh
  · exact hh

theorem mem_connected_record (hh : h ∈ b.connected) (hc : r.Accepted → c ≠ .disconnect h) :
    h ∈ (b.record c r).connected := by
  unfold record
  split
  · next ha =>
    cases c with
    | allocHandle type _ => cases type <;> exact hh
    | freeHandle type _ => cases type <;> exact hh
    | connect => simp [enter, hh]
    | disconnect x => simp_all [enter, eq_comm]
    | _ => exact hh
  · exact hh

theorem mem_stmts_record (hh : h ∈ b.stmts)
    (hc : r.Accepted → c ≠ .freeHandle .stmt h ∧ c ≠ .disconnect (b.dbcOf h)) :
    h ∈ (b.record c r).stmts := by
  unfold record
  split
  · next ha =>
    cases c with
    | allocHandle type _ => cases type <;> simp [enter, hh]
    | freeHandle type x => cases type <;> simp_all [enter, eq_comm]
    | disconnect x => simp_all [enter, eq_comm]
    | _ => exact hh
  · exact hh

/-- A handle handed out is the only one that moves to another environment. -/
theorem envOf_record (hc : r.Accepted → ∀ env, c = .allocHandle .dbc env → r.handle ≠ h) :
    (b.record c r).envOf h = b.envOf h := by
  unfold record
  split
  · next ha =>
    cases c with
    | allocHandle type env =>
        cases type with
        | dbc => exact Function.update_of_ne (hc ha env rfl).symm _ _
        | _ => rfl
    | freeHandle type _ => cases type <;> rfl
    | _ => rfl
  · rfl

/-- A handle handed out is the only one that moves to another connection. -/
theorem dbcOf_record (hc : r.Accepted → ∀ dbc, c = .allocHandle .stmt dbc → r.handle ≠ h) :
    (b.record c r).dbcOf h = b.dbcOf h := by
  unfold record
  split
  · next ha =>
    cases c with
    | allocHandle type dbc =>
        cases type with
        | stmt => exact Function.update_of_ne (hc ha dbc rfl).symm _ _
        | _ => rfl
    | freeHandle type _ => cases type <;> rfl
    | _ => rfl
  · rfl

/-- Only an accepted allocation adds an environment, only an accepted release takes one. -/
theorem mem_envs_of_record (hh : h ∈ (b.record c r).envs) :
    (h ∈ b.envs ∧ (r.Accepted → c ≠ .freeHandle .env h)) ∨
      r.Accepted ∧ r.handle = h ∧ ∃ input, c = .allocHandle .env input := by
  unfold record at hh
  split at hh
  · next ha =>
    cases c with
    | allocHandle type _ => cases type <;> simp_all [enter, eq_comm, or_comm]
    | freeHandle type _ => cases type <;> simp_all [enter, eq_comm]
    | _ => exact .inl ⟨hh, fun _ => nofun⟩
  · next ha => exact .inl ⟨hh, fun h => absurd h ha⟩

theorem mem_dbcs_of_record (hh : h ∈ (b.record c r).dbcs) :
    h ∈ b.dbcs ∨ r.Accepted ∧ r.handle = h ∧ ∃ env, c = .allocHandle .dbc env := by
  unfold record at hh
  split at hh
  · next ha =>
    cases c with
    | allocHandle type _ => cases type <;> simp_all [enter, eq_comm, or_comm]
    | freeHandle type _ => cases type <;> simp_all [enter]
    | _ => exact .inl hh
  · exact .inl hh

end Books

variable {σ : Type} (cli : Cli σ) (view : σ → Books)

/-! ## The ledger -/

/-- The answer to a recorded call. -/
def Event.reply (e : Event σ) : Reply := (cli.call e.drv e.call).1

/-- What a call gives up: the handle it frees, whatever the driver answers, and the
statements of the connection it disconnects. The environment is given up when the driver
accepts, since every close asks for it. -/
def Event.givesUp (e : Event σ) : Finset (HandleType × Handle) :=
  match e.call with
  | .freeHandle .env h => if (e.reply cli).Accepted then {(.env, h)} else ∅
  | .freeHandle type h => {(type, h)}
  | .disconnect h =>
      if (e.reply cli).Accepted then
        ((view e.drv).stmts.filter fun s => (view e.drv).dbcOf s = h).image (Prod.mk .stmt)
      else ∅
  | _ => ∅

/-- The handle an allocation hands out. -/
def Event.handsOut (e : Event σ) : Finset (HandleType × Handle) :=
  match e.call with
  | .allocHandle type _ => if (e.reply cli).Accepted then {(type, (e.reply cli).handle)} else ∅
  | _ => ∅

/-- The handles given up and not handed out again. -/
def freed (tr : List (Event σ)) : Finset (HandleType × Handle) :=
  tr.foldl (fun given e => (given ∪ e.givesUp cli view) \ e.handsOut cli) ∅

/-- What a call of the connection class does to `henv_ref_cnt_`. -/
def Event.change (e : Event σ) : Int :=
  match e.call with
  | .allocHandle .dbc _ => if (e.reply cli).rc = sqlSuccess then 1 else 0
  | .freeHandle .dbc _ => -1
  | _ => 0

/-- The number of times the counter went up less those it went down. -/
def balance (tr : List (Event σ)) : Int := (tr.map (Event.change cli)).sum

/-- The record of a call. -/
def World.event (w : World σ) (c : CliCall) : Event σ := ⟨c, (cli.call w.drv c).1.rc, w.drv, w.heap⟩

section Ledger

variable {cli view} {w : World σ} {c : CliCall} {h : Handle} {type : HandleType}

theorem freed_issue :
    freed cli view (w.issue cli c).trace =
      (freed cli view w.trace ∪ (w.event cli c).givesUp cli view) \ (w.event cli c).handsOut cli := by
  simp [freed, World.event]

theorem balance_issue :
    balance cli (w.issue cli c).trace = balance cli w.trace + (w.event cli c).change cli := by
  simp [balance, World.event]

theorem mem_givesUp_dbc {e : Event σ} :
    (.dbc, h) ∈ e.givesUp cli view ↔ e.call = .freeHandle .dbc h := by
  unfold Event.givesUp
  split
  · split <;> simp_all
  · simp_all [eq_comm]
  · split <;> simp_all
  · simp_all

theorem mem_givesUp_env {e : Event σ} :
    (.env, h) ∈ e.givesUp cli view ↔ e.call = .freeHandle .env h ∧ (e.reply cli).Accepted := by
  unfold Event.givesUp
  split
  · split <;> simp_all [eq_comm]
  · simp_all [eq_comm]
  · split <;> simp_all
  · simp_all

theorem mem_givesUp_stmt {e : Event σ} :
    (.stmt, h) ∈ e.givesUp cli view ↔
      e.call = .freeHandle .stmt h ∨
        e.call = .disconnect ((view e.drv).dbcOf h) ∧ (e.reply cli).Accepted ∧
          h ∈ (view e.drv).stmts := by
  unfold Event.givesUp
  split
  · split <;> simp_all
  · simp_all [eq_comm]
  · split <;> simp_all [and_comm, eq_comm]
  · simp_all

theorem notMem_freed_issue {p : HandleType × Handle} (hp : p ∉ freed cli view w.trace)
    (hg : p ∉ (w.event cli c).givesUp cli view) : p ∉ freed cli view (w.issue cli c).trace := by
  rw [freed_issue, Finset.mem_sdiff, Finset.mem_union]
  rintro ⟨hmem | hmem, -⟩
  · exact hp hmem
  · exact hg hmem

/-- A handle handed out is not given up. -/
theorem notMem_freed_alloc (type : HandleType) {input : Handle}
    (ha : (cli.call w.drv (.allocHandle type input)).1.Accepted) :
    (type, (cli.call w.drv (.allocHandle type input)).1.handle) ∉
      freed cli view (w.issue cli (.allocHandle type input)).trace := by
  rw [freed_issue, Finset.mem_sdiff]
  rintro ⟨-, hout⟩
  apply hout
  unfold Event.handsOut
  change _ ∈ if (cli.call w.drv (.allocHandle type input)).1.Accepted then _ else _
  rw [if_pos ha]
  exact Finset.mem_singleton_self _

end Ledger

/-! ## What a call keeps -/

/-- No handle is given up twice, and the environments given up are not allocated. `L` are
connection handles the program has counted, on environment `e`; `C` are those of the live
connections, and `S` the handles of the live statements. -/
structure Holds (w : World σ) (e : Handle) (L : Finset Handle) (C S : Set Handle) : Prop where
  once : ∀ pre ev post type h, w.trace = pre ++ ev :: post → ev.call = .freeHandle type h →
    (type, h) ∉ freed cli view pre
  envs : ∀ h, (.env, h) ∈ freed cli view w.trace → h ∉ (view w.drv).envs
  range : ∀ h ∈ (view w.drv).dbcs, h ≠ 0 ∧ -(2 ^ 31) ≤ h ∧ h < 2 ^ 31
  counted : ∀ h ∈ L, h ∈ (view w.drv).dbcs ∧ (.dbc, h) ∉ freed cli view w.trace
  onEnv : ∀ h ∈ L, (view w.drv).envOf h = e ∧ e ∈ (view w.drv).envs
  conns : ∀ h ∈ C, h ∈ L ∧ h ∈ (view w.drv).connected
  stmts : ∀ h ∈ S, h ∈ (view w.drv).stmts ∧ (view w.drv).dbcOf h ∈ (view w.drv).dbcs ∧
    (.stmt, h) ∉ freed cli view w.trace


/-- The call frees no handle twice and none that is held. -/
def Spares (w : World σ) (L : Finset Handle) (C S : Set Handle) : CliCall → Prop
  | .freeHandle .env h => (.env, h) ∉ freed cli view w.trace
  | .freeHandle .dbc h => (.dbc, h) ∉ freed cli view w.trace ∧ h ∉ L ∧
      ((cli.call w.drv (.freeHandle .dbc h)).1.Accepted → ∀ s ∈ S, (view w.drv).dbcOf s ≠ h)
  | .freeHandle .stmt h => (.stmt, h) ∉ freed cli view w.trace ∧ h ∉ S
  | .disconnect h => (cli.call w.drv (.disconnect h)).1.Accepted →
      h ∉ C ∧ ∀ s ∈ S, (view w.drv).dbcOf s ≠ h
  | _ => True

section Holds

variable {cli view} {active : σ → Handle → Prop} (ho : Odbc cli view active)
variable {w : World σ} {e : Handle} {L : Finset Handle} {C S : Set Handle} {c : CliCall}

/-- The last record of a longer list, or one of the others. -/
theorem split_snoc {α : Type} {xs pre post : List α} {x y : α} (h : xs ++ [y] = pre ++ x :: post) :
    pre = xs ∧ x = y ∨ ∃ post', xs = pre ++ x :: post' := by
  rcases List.eq_nil_or_concat' post with rfl | ⟨post', z, rfl⟩
  · obtain ⟨hpre, hx⟩ := List.append_inj' h rfl
    exact .inl ⟨hpre.symm, (List.cons.inj hx).1.symm⟩
  · have h' : xs ++ [y] = (pre ++ x :: post') ++ [z] := by simpa using h
    exact .inr ⟨post', (List.append_inj' h' rfl).1⟩

theorem Spares.notMem_freed (hc : Spares cli view w L C S c) {type : HandleType} {h : Handle}
    (heq : c = .freeHandle type h) : (type, h) ∉ freed cli view w.trace := by
  subst heq
  cases type with
  | env => exact hc
  | dbc => exact hc.1
  | stmt => exact hc.1

include ho

/-- A call that spares what is held keeps it. -/
theorem Holds.issue (hw : Holds cli view w e L C S) (hc : Spares cli view w L C S c) :
    Holds cli view (w.issue cli c) e L C S := by
  have hrec : view (w.issue cli c).drv = (view w.drv).record c (cli.call w.drv c).1 :=
    ho.records w.drv c
  constructor
  · intro pre ev post type h htrace hcall
    obtain ⟨rfl, rfl⟩ | ⟨post', htrace'⟩ := split_snoc htrace
    · exact hc.notMem_freed hcall
    · exact hw.once pre ev post' type h htrace' hcall
  · intro h hmem
    rw [hrec]
    intro henv
    rw [freed_issue, Finset.mem_sdiff, Finset.mem_union, mem_givesUp_env] at hmem
    obtain ⟨hgiven, hout⟩ := hmem
    obtain ⟨hold, hne⟩ | ⟨hacc, rfl, input, rfl⟩ := Books.mem_envs_of_record henv
    · rcases hgiven with hgiven | ⟨hcall, hacc⟩
      · exact hw.envs h hgiven hold
      · exact hne hacc hcall
    · have hnot : (.env, (cli.call w.drv (.allocHandle .env input)).1.handle) ∉
          freed cli view (w.issue cli (.allocHandle .env input)).trace := notMem_freed_alloc .env hacc
      apply hnot
      rw [freed_issue, Finset.mem_sdiff, Finset.mem_union, mem_givesUp_env]
      exact ⟨hgiven, hout⟩
  · intro h hmem
    rw [hrec] at hmem
    obtain hmem | ⟨hacc, rfl, env, rfl⟩ := Books.mem_dbcs_of_record hmem
    · exact hw.range h hmem
    · exact ho.range w.drv .dbc env hacc
  · intro h hmem
    obtain ⟨hdbc, hfree⟩ := hw.counted h hmem
    have hne : c ≠ .freeHandle .dbc h := by
      rintro rfl
      exact hc.2.1 hmem
    rw [hrec]
    exact ⟨Books.mem_dbcs_record hdbc fun _ => hne,
      notMem_freed_issue hfree fun hgiven => hne (mem_givesUp_dbc.mp hgiven)⟩
  · intro h hmem
    obtain ⟨hon, henv⟩ := hw.onEnv h hmem
    obtain ⟨hdbc, -⟩ := hw.counted h hmem
    rw [hrec]
    constructor
    · rw [Books.envOf_record, hon]
      rintro hacc env rfl rfl
      exact ho.fresh w.drv .dbc env hacc hdbc
    · apply Books.mem_envs_record henv
      rintro hacc rfl
      exact ho.free_busy w.drv e ⟨h, hdbc, hon⟩ hacc
  · intro h hmem
    obtain ⟨hl, hconn⟩ := hw.conns h hmem
    refine ⟨hl, ?_⟩
    rw [hrec]
    apply Books.mem_connected_record hconn
    rintro hacc rfl
    exact (hc hacc).1 hmem
  · intro h hmem
    obtain ⟨hstmt, hdbc, hfree⟩ := hw.stmts h hmem
    have hfreed : c ≠ .freeHandle .stmt h := by
      rintro rfl
      exact hc.2 hmem
    have hdrop : (cli.call w.drv c).1.Accepted → c ≠ .disconnect ((view w.drv).dbcOf h) := by
      rintro hacc rfl
      exact (hc hacc).2 h hmem rfl
    rw [hrec]
    refine ⟨Books.mem_stmts_record hstmt fun hacc => ⟨hfreed, hdrop hacc⟩, ?_, ?_⟩
    · rw [Books.dbcOf_record]
      · apply Books.mem_dbcs_record hdbc
        rintro hacc rfl
        exact hc.2.2 hacc h hmem rfl
      · rintro hacc dbc rfl rfl
        exact ho.fresh w.drv .stmt dbc hacc hstmt
    · apply notMem_freed_issue hfree
      rw [mem_givesUp_stmt]
      rintro (hcall | ⟨hcall, hacc, -⟩)
      · exact hfreed hcall
      · exact hdrop hacc hcall

end Holds

end Dbgen3.Runtime
