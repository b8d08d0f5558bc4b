import Dbgen3.Runtime.Diagnostics
import Dbgen3.Runtime.Setup

/-!
# Allowed return codes

`handle_return_code` returns at the first diagnostic record whose code is
allowed, and narrows that code to 16 bits. The records behind it are not looked
at, and another number than the allowed code may be returned.
-/

namespace Dbgen3.Runtime

open Act

variable {σ : Type} {cli : Cli σ} {records : List DiagRec} {codes : List Int}

/-- A driver on which every call ends with `rc` and every handle holds these records. -/
def Cli.reporting (rc : Ret) (records : List DiagRec) : Cli Unit where
  call _ _ := ({ rc }, ())
  diag _ _ _ := records.map .success

theorem hasRecords_map_success (records : List DiagRec) :
    HasRecords (records.map .success) records := by
  induction records with
  | nil => exact .past (by simp)
  | cons r records ih => exact .record r ih

namespace Statement

/-! ## What `handle_return_code` ends with -/

section Ends

variable {s : StmtId} {rc : Ret} {w : World σ}

theorem handleReturnCode_success (cli : Cli σ) (s : StmtId) (codes : List Int) (w : World σ) :
    (handleReturnCode cli s sqlSuccess codes).runOn w = (.ok sqlSuccess, w) := rfl

/-- With diagnostics that can be read the records decide. -/
theorem handleReturnCode_of_readable (hrc : rc ≠ sqlSuccess)
    (hrec : HasRecords (cli.diag w.drv .stmt (w.heap.stmts s).handle) records)
    (hr : readable (cli.diag w.drv .stmt (w.heap.stmts s).handle) = true) :
    (handleReturnCode cli s rc codes).runOn w =
      (match allowedCode records codes with
        | some code => .ok (int16 code)
        | none => .error (.errorException (errorDump records (w.heap.stmts s).sql)), w) := by
  unfold handleReturnCode
  rw [if_pos hrc, runOn_bind_ok (runOn_get w)]
  dsimp only
  rw [load_of_readable hrec hr, runOn_bind_ok (runOn_fromResult _ w)]
  cases allowedCode records codes <;> rfl

theorem handleReturnCode_of_not_readable (codes : List Int) (hrc : rc ≠ sqlSuccess)
    (hr : readable (cli.diag w.drv .stmt (w.heap.stmts s).handle) = false) :
    ∃ what, (handleReturnCode cli s rc codes).runOn w = (.error (.runtimeError what), w) := by
  obtain ⟨what, hl⟩ := load_of_not_readable hr
  refine ⟨what, ?_⟩
  unfold handleReturnCode
  rw [if_pos hrc, runOn_bind_ok (runOn_get w)]
  dsimp only
  rw [hl]
  exact runOn_bind_error (runOn_fromResult _ w) _

end Ends

/-! ## One record hides the others -/

/-- A normal return says that every record is allowed, and a record that is not
allowed is raised. -/
structure ChecksRecords (result : Except Exc Ret) (codes : List Int) (records : List DiagRec) :
    Prop where
  returned : ∀ r, result = .ok r → ∀ ec ∈ records, ec.code ∈ codes
  raised : (∃ ec ∈ records, ec.code ∉ codes) →
    ∃ what, result = .error (.errorException what)

/-- The records are all checked exactly when all of them are allowed, or when the
diagnostics can be read and none of them is. -/
theorem handleReturnCode_checks_iff (cli : Cli σ) (s : StmtId) (rc : Ret) (codes : List Int)
    (w : World σ) (records : List DiagRec) (hrc : rc ≠ sqlSuccess)
    (hrec : HasRecords (cli.diag w.drv .stmt (w.heap.stmts s).handle) records) :
    ChecksRecords ((handleReturnCode cli s rc codes).runOn w).1 codes records ↔
      (∀ ec ∈ records, ec.code ∈ codes) ∨
        readable (cli.diag w.drv .stmt (w.heap.stmts s).handle) = true ∧
          ∀ ec ∈ records, ec.code ∉ codes := by
  constructor
  · rintro ⟨hreturned, hraised⟩
    by_cases hall : ∀ ec ∈ records, ec.code ∈ codes
    · exact .inl hall
    · -- a record that is not allowed is raised only where the loop finds no allowed one
      right
      have hunlisted : ∃ ec ∈ records, ec.code ∉ codes := by
        simpa only [not_forall, exists_prop] using hall
      obtain ⟨what, hw⟩ := hraised hunlisted
      have hread : readable (cli.diag w.drv .stmt (w.heap.stmts s).handle) = true := by
        by_contra hr
        obtain ⟨what', hw'⟩ :=
          handleReturnCode_of_not_readable codes hrc (Bool.eq_false_iff.mpr hr)
        rw [hw'] at hw
        cases hw
      refine ⟨hread, allowedCode_eq_none_iff.mp ?_⟩
      rw [handleReturnCode_of_readable hrc hrec hread] at hw
      cases h : allowedCode records codes with
      | none => rfl
      | some code =>
          rw [h] at hw
          cases hw
  · rintro (hall | ⟨hread, hnone⟩)
    · refine ⟨fun _ _ => hall, ?_⟩
      rintro ⟨ec, hec, hnot⟩
      exact absurd (hall ec hec) hnot
    · rw [handleReturnCode_of_readable hrc hrec hread, allowedCode_eq_none_iff.mpr hnone]
      exact ⟨nofun, fun _ => ⟨_, rfl⟩⟩

/-- A batch of rows in which one row is a duplicate and another one violates a foreign key. -/
def batchErrors : List DiagRec :=
  [⟨-803, "23505", "duplicate key"⟩, ⟨-530, "23503", "no matching parent row"⟩]

/-- Both errors are allowed, and both records are checked. -/
theorem handleReturnCode_checks_allowed :
    ChecksRecords
      ((handleReturnCode (Cli.reporting (-1) batchErrors) 0 (-1) [-803, -530]).runOn
        (World.start ())).1 [-803, -530] batchErrors :=
  (handleReturnCode_checks_iff (Cli.reporting (-1) batchErrors) 0 (-1) [-803, -530]
    (World.start ()) batchErrors (by decide) (hasRecords_map_success batchErrors)).mpr
      (.inl (by decide))

/-- The duplicate is allowed, and the row without a parent is not raised. -/
theorem not_checks_batchErrors :
    ¬ ChecksRecords
      ((handleReturnCode (Cli.reporting (-1) batchErrors) 0 (-1) [-803]).runOn
        (World.start ())).1 [-803] batchErrors := by
  intro h
  have hall := h.returned (-803) rfl
  exact absurd hall (by decide)

/-! ## The returned number -/

/-- `SQL_SUCCESS` is returned for `SQL_SUCCESS` only, and every other number is an allowed
code and the code of a record. -/
structure Listed (rc r : Ret) (codes : List Int) (records : List DiagRec) : Prop where
  success : r = sqlSuccess → rc = sqlSuccess
  code : r ≠ sqlSuccess → r ∈ codes ∧ ∃ ec ∈ records, ec.code = r

/-- The code of the first allowed record differs by a multiple of 2^16 from a number that
fits 16 bits, is not zero, and is allowed and the code of a record itself. -/
def Narrows (codes : List Int) (records : List DiagRec) : Prop :=
  ∀ c, allowedCode records codes = some c →
    ∃ k, -(2 ^ 15) ≤ k ∧ k < 2 ^ 15 ∧ (2 ^ 16 : Int) ∣ k - c ∧ k ≠ 0 ∧
      k ∈ codes ∧ ∃ ec ∈ records, ec.code = k

theorem int16_eq_iff {c k : Int} :
    int16 c = k ↔ -(2 ^ 15) ≤ k ∧ k < 2 ^ 15 ∧ (2 ^ 16 : Int) ∣ k - c := by
  unfold int16
  rw [Int.bmod_eq_iff (by decide)]
  omega

/-- A returned code is listed exactly when the first allowed code narrows to a listed one. -/
theorem listed_iff {rc c : Ret} (hrc : rc ≠ sqlSuccess)
    (hc : allowedCode records codes = some c) :
    Listed rc (int16 c) codes records ↔ Narrows codes records := by
  constructor
  · intro h c' hc'
    obtain rfl : c = c' := Option.some.inj (hc.symm.trans hc')
    have hne : int16 c ≠ 0 := fun h0 => hrc (h.success h0)
    obtain ⟨hmem, hrec⟩ := h.code hne
    obtain ⟨hlow, hhigh, hdvd⟩ := int16_eq_iff.mp (rfl : int16 c = int16 c)
    exact ⟨int16 c, hlow, hhigh, hdvd, hne, hmem, hrec⟩
  · intro h
    obtain ⟨k, hlow, hhigh, hdvd, hne, hmem, hrec⟩ := h c hc
    have hk : int16 c = k := int16_eq_iff.mpr ⟨hlow, hhigh, hdvd⟩
    rw [hk]
    exact ⟨fun h0 => absurd h0 hne, fun _ => ⟨hmem, hrec⟩⟩

/-- `handle_return_code` returns listed numbers only exactly when it is given `SQL_SUCCESS`,
cannot read the diagnostics, or narrows to a listed number. -/
theorem handleReturnCode_listed_iff (cli : Cli σ) (s : StmtId) (rc : Ret) (codes : List Int)
    (w : World σ) (records : List DiagRec)
    (hrec : HasRecords (cli.diag w.drv .stmt (w.heap.stmts s).handle) records) :
    (∀ r, ((handleReturnCode cli s rc codes).runOn w).1 = .ok r → Listed rc r codes records) ↔
      rc = sqlSuccess ∨ readable (cli.diag w.drv .stmt (w.heap.stmts s).handle) = false ∨
        Narrows codes records := by
  by_cases hrc : rc = sqlSuccess
  · subst hrc
    refine iff_of_true (fun r hr => ?_) (.inl rfl)
    obtain rfl : sqlSuccess = r := Except.ok.inj hr
    exact ⟨fun _ => rfl, fun hne => absurd rfl hne⟩
  · cases hread : readable (cli.diag w.drv .stmt (w.heap.stmts s).handle) with
    | false =>
        refine iff_of_true (fun r hr => ?_) (.inr (.inl rfl))
        obtain ⟨what, hw⟩ := handleReturnCode_of_not_readable codes hrc hread
        rw [hw] at hr
        cases hr
    | true =>
        rw [handleReturnCode_of_readable hrc hrec hread]
        cases hc : allowedCode records codes with
        | none =>
            refine iff_of_true nofun (.inr (.inr fun c hc' => ?_))
            rw [hc] at hc'
            cases hc'
        | some c =>
            constructor
            · exact fun h => .inr (.inr ((listed_iff hrc hc).mp (h (int16 c) rfl)))
            · rintro (h | h | h) r hr
              · exact absurd h hrc
              · cases h
              · obtain rfl : int16 c = r := Except.ok.inj hr
                exact (listed_iff hrc hc).mpr h

/-- What a normal return is worth: the diagnostics were read, if they were needed. -/
theorem listed_of_returns (s : StmtId) {rc r : Ret} {w : World σ}
    (hrec : HasRecords (cli.diag w.drv .stmt (w.heap.stmts s).handle) records)
    (h : ((handleReturnCode cli s rc codes).runOn w).1 = .ok r) :
    Listed rc r codes records ↔ rc = sqlSuccess ∨ Narrows codes records := by
  have hiff := handleReturnCode_listed_iff cli s rc codes w records hrec
  rw [h] at hiff
  have hread : rc ≠ sqlSuccess →
      readable (cli.diag w.drv .stmt (w.heap.stmts s).handle) ≠ false := by
    intro hrc hr
    obtain ⟨what, hw⟩ := handleReturnCode_of_not_readable codes hrc hr
    rw [hw] at h
    cases h
  calc Listed rc r codes records
      ↔ ∀ r', Except.ok r = (.ok r' : Except Exc Ret) → Listed rc r' codes records :=
        ⟨fun hl r' hr' => Except.ok.inj hr' ▸ hl, fun hall => hall r rfl⟩
    _ ↔ _ := hiff
    _ ↔ rc = sqlSuccess ∨ Narrows codes records := by
        by_cases hrc : rc = sqlSuccess
        · simp only [hrc, true_or]
        · simp [hrc, hread hrc]

end Statement

/-! ## The return codes of a query object -/

namespace Utl

/-- The code that a step ends with is the one the query object stores. -/
def StoresRc (u : UtlId) (m : Act (World σ) Exc Ret) : Prop :=
  ∀ w rc w', m.runOn w = (.ok rc, w') → (w'.heap.utls u).rc = rc

/-- A step that is given the stored code ends with the stored code. -/
def KeepsRc (u : UtlId) (f : Ret → Act (World σ) Exc Ret) : Prop :=
  ∀ w rc r w', (w.heap.utls u).rc = rc → (f rc).runOn w = (.ok r, w') →
    (w'.heap.utls u).rc = r

variable {u : UtlId}

theorem StoresRc.bind {m : Act (World σ) Exc Ret} {f : Ret → Act (World σ) Exc Ret}
    (hm : StoresRc u m) (hf : KeepsRc u f) : StoresRc u (m >>= f) := by
  intro w r w' h
  obtain ⟨rc, t, hrc, hrest⟩ := runOn_bind_eq_ok h
  exact hf t rc r w' (hm w rc t hrc) hrest

theorem KeepsRc.bind {f g : Ret → Act (World σ) Exc Ret} (hf : KeepsRc u f)
    (hg : KeepsRc u g) : KeepsRc u fun rc => f rc >>= g := by
  intro w rc r w' hw h
  obtain ⟨rc', t, hrc, hrest⟩ := runOn_bind_eq_ok h
  exact hg t rc' r w' (hf w rc rc' t hw hrc) hrest

theorem storesRc_getHeap_bind {f : Heap → Act (World σ) Exc Ret}
    (h : ∀ hp, StoresRc u (f hp)) : StoresRc u (getHeap >>= f) := by
  intro w r w' hrun
  rw [runOn_bind_ok (runOn_getHeap w)] at hrun
  exact h w.heap w r w' hrun

theorem storesRc_assignRc (step : Act (World σ) Exc Ret) : StoresRc u (assignRc u step) := by
  intro w r w' h
  obtain ⟨t, -, rfl⟩ := assignRc_eq_ok h
  simp

theorem keepsRc_ifOk (step : Act (World σ) Exc Ret) : KeepsRc u fun rc => ifOk u rc step := by
  intro w rc r w' hw h
  obtain ⟨-, t, -, rfl⟩ | ⟨-, rfl, rfl⟩ := assignIf_eq_ok h
  · simp [World.setRc]
  · exact hw

theorem keepsRc_bindSlot (slot : Utl → Option BufId) : KeepsRc u (bindSlot cli u slot) := by
  intro w rc r w' hw h
  unfold bindSlot at h
  rw [runOn_bind_ok (runOn_getHeap w)] at h
  cases hslot : slot (w.heap.utls u) with
  | none =>
      simp only [hslot, runOn_pure, Prod.mk.injEq, Except.ok.injEq] at h
      rw [← h.1, ← h.2]
      exact hw
  | some b =>
      simp only [hslot] at h
      exact keepsRc_ifOk _ w rc r w' hw h

/-- The set-up phase stores the code it ends with. -/
theorem storesRc_setup (sql : Str) : StoresRc u (setup cli u sql) := by
  have hprepare : StoresRc u (prepareAll cli u sql) := by
    refine storesRc_getHeap_bind fun hp => (storesRc_assignRc _).bind ?_
    exact (keepsRc_ifOk _).bind ((keepsRc_ifOk _).bind (keepsRc_ifOk _))
  exact hprepare.bind ((keepsRc_bindSlot Utl.parBuf).bind (keepsRc_bindSlot Utl.resBuf))

/-- `exec` returns `SQL_SUCCESS` for a stored `SQL_SUCCESS`, and otherwise what
`handle_return_code` makes of the stored code in the world at the end. -/
theorem exec_handled {sql : Str} {w w' : World σ} {r : Ret}
    (h : (exec cli u sql).runOn w = (.ok r, w')) :
    (Statement.handleReturnCode cli (w.heap.utls u).s (w'.heap.utls u).rc
      (w.heap.utls u).allowedCodes).runOn w' = (.ok r, w') := by
  unfold exec at h
  rw [runOn_bind_ok (runOn_getHeap w)] at h
  obtain ⟨rc₁, t₁, hsetup, h⟩ := runOn_bind_eq_ok h
  obtain ⟨rc₂, t₂, hexec, h⟩ := runOn_bind_eq_ok h
  have hrc : (t₂.heap.utls u).rc = rc₂ :=
    keepsRc_ifOk _ t₁ rc₁ rc₂ t₂ (storesRc_setup sql w rc₁ t₁ hsetup) hexec
  by_cases hne : rc₂ = sqlSuccess
  · subst hne
    rw [if_neg (not_not_intro rfl), runOn_pure, Prod.mk.injEq] at h
    obtain ⟨hr, rfl⟩ := h
    rw [hrc, Statement.handleReturnCode_success, hr]
  · rw [if_pos hne] at h
    have hw : t₂ = w' := (handleReturnCode_state _ _ _ t₂).symm.trans (congrArg Prod.snd h)
    subst hw
    rw [hrc, h]

/-- `fetch` returns `SQL_NO_DATA` for itself, and otherwise what `handle_return_code`
makes of the stored code in the world at the end. -/
theorem fetch_handled {w w' : World σ} {r : Ret} (h : (fetch cli u).runOn w = (.ok r, w')) :
    (w'.heap.utls u).rc = sqlNoData ∧ r = sqlNoData ∨
      (Statement.handleReturnCode cli (w.heap.utls u).s (w'.heap.utls u).rc
        (w.heap.utls u).allowedCodes).runOn w' = (.ok r, w') := by
  unfold fetch at h
  rw [runOn_bind_ok (runOn_getHeap w)] at h
  dsimp only at h
  cases hres : (w.heap.utls u).resBuf with
  | none =>
      rw [hres] at h
      cases h
  | some b =>
      rw [hres] at h
      obtain ⟨rc, t, hrc, h⟩ := runOn_bind_eq_ok h
      have hstored : (t.heap.utls u).rc = rc := storesRc_assignRc _ w rc t hrc
      by_cases hend : rc = sqlNoData
      · rw [if_pos hend, runOn_pure, Prod.mk.injEq, Except.ok.injEq] at h
        obtain ⟨hr, rfl⟩ := h
        exact .inl ⟨hstored.trans hend, hr.symm.trans hend⟩
      · rw [if_neg hend] at h
        have hw : t = w' := (handleReturnCode_state _ _ _ t).symm.trans (congrArg Prod.snd h)
        subst hw
        rw [hstored]
        exact .inr h

/-- What `handle_return_code`, `exec` and `fetch` return is listed exactly when the code of
the first allowed record narrows to a listed number. A `fetch` behind the last row returns
`SQL_NO_DATA` without `handle_return_code`. -/
theorem returned_listed_iff (cli : Cli σ) :
    (∀ s rc codes w records, HasRecords (cli.diag w.drv .stmt (w.heap.stmts s).handle) records →
      ((∀ r, ((Statement.handleReturnCode cli s rc codes).runOn w).1 = .ok r →
          Statement.Listed rc r codes records) ↔
        rc = sqlSuccess ∨ readable (cli.diag w.drv .stmt (w.heap.stmts s).handle) = false ∨
          Statement.Narrows codes records)) ∧
    (∀ u sql w r w', (exec cli u sql).runOn w = (.ok r, w') → ∀ records,
      HasRecords (cli.diag w'.drv .stmt (w'.heap.stmts (w.heap.utls u).s).handle) records →
      (Statement.Listed (w'.heap.utls u).rc r (w.heap.utls u).allowedCodes records ↔
        (w'.heap.utls u).rc = sqlSuccess ∨
          Statement.Narrows (w.heap.utls u).allowedCodes records)) ∧
    (∀ u w r w', (fetch cli u).runOn w = (.ok r, w') → ∀ records,
      HasRecords (cli.diag w'.drv .stmt (w'.heap.stmts (w.heap.utls u).s).handle) records →
      (w'.heap.utls u).rc = sqlNoData ∧ r = sqlNoData ∨
      (Statement.Listed (w'.heap.utls u).rc r (w.heap.utls u).allowedCodes records ↔
        (w'.heap.utls u).rc = sqlSuccess ∨
          Statement.Narrows (w.heap.utls u).allowedCodes records)) := by
  refine ⟨fun s rc codes w records hrec => ?_, fun u sql w r w' h records hrec => ?_,
    fun u w r w' h records hrec => ?_⟩
  · exact Statement.handleReturnCode_listed_iff cli s rc codes w records hrec
  · exact Statement.listed_of_returns _ hrec (congrArg Prod.fst (exec_handled h))
  · apply (fetch_handled h).imp_right
    exact fun hret => Statement.listed_of_returns _ hrec (congrArg Prod.fst hret)

/-- A duplicate key is an allowed code of 16 bits. -/
theorem returned_listed_duplicate :
    ∀ r, ((Statement.handleReturnCode (Cli.reporting (-1) Statement.batchErrors) 0 (-1)
        [-803]).runOn (World.start ())).1 = .ok r →
      Statement.Listed (-1) r [-803] Statement.batchErrors := by
  have hnarrows : Statement.Narrows [-803] Statement.batchErrors := by
    intro c hc
    obtain rfl : -803 = c := Option.some.inj hc
    exact ⟨-803, by decide, by decide, by decide, by decide, by decide, by decide⟩
  exact ((returned_listed_iff (Cli.reporting (-1) Statement.batchErrors)).1 0 (-1) [-803]
    (World.start ()) Statement.batchErrors (hasRecords_map_success _)).mpr (.inr (.inr hnarrows))

/-- The code that the driver gives to its own errors. -/
def sequenceError : List DiagRec := [⟨-99999, "HY010", "Function sequence error."⟩]

/-- It is allowed, and 31073 is returned for it. -/
theorem not_listed_sequenceError :
    ¬ ∀ r, ((Statement.handleReturnCode (Cli.reporting (-1) sequenceError) 0 (-1)
        [-99999]).runOn (World.start ())).1 = .ok r →
      Statement.Listed (-1) r [-99999] sequenceError := by
  intro h
  have hlisted := h 31073 rfl
  exact absurd (hlisted.code (by decide)).1 (by decide)

end Utl

end Dbgen3.Runtime
