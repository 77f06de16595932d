import RainEngine.Kernel.Host

/-
  This file collects what an answer of the host leaves behind:
  which requests keep the ledger, and the rules by which an
  append or a fresh identifier is a safe request.

  Key definitions include:
    * `Op.Silent`
    * `storedIn`
    * `Grown`

  Key theorems include:
    * `hostNext_ledger`
    * `exec_ledger`
    * `safe_append`
    * `safe_appendOrFail`
    * `safe_newUuid`
    * `safe_silent`
    * `safe_grown`
    * `safe_appendOrFail_answered`
-/

namespace RainEngine

open Effects

------------------------------------------------------------
-- Worlds
------------------------------------------------------------

@[simp] theorem World.append_ledger
    (w : World)
    (record : SessionRecord) :
    (w.append record).ledger = w.ledger ++ [record] :=
  rfl

@[simp] theorem World.append_cache
    (w : World)
    (record : SessionRecord) :
    (w.append record).cache = w.cache :=
  rfl

@[simp] theorem World.append_issued
    (w : World)
    (record : SessionRecord) :
    (w.append record).issued = w.issued :=
  rfl

@[simp] theorem World.append_sessionId
    (w : World)
    (record : SessionRecord) :
    (w.append record).sessionId = w.sessionId :=
  rfl

@[simp] theorem World.snapshot_records (w : World) :
    w.snapshot.records = w.ledger :=
  rfl

------------------------------------------------------------
-- Silent Requests
------------------------------------------------------------

/- A request that appends nothing. -/
def Op.Silent : Op → Prop
| .append _ => False
| _ => True

/- The ledger only changes by a successful append. -/
theorem hostNext_ledger
    (w : World)
    (op : Op)
    (a : Answer op) :
    (hostNext w op a).ledger = w.ledger ∨
      ∃ record, op = .append record ∧
        (hostNext w op a).ledger = w.ledger ++ [record] := by
  cases op with
  | append record =>
      cases a with
      | ok _ => exact .inr ⟨record, rfl, rfl⟩
      | error _ => exact .inl rfl
  | setProjection snapshot =>
      cases a <;> exact .inl rfl
  | _ => exact .inl rfl

theorem hostNext_ledger_of_silent
    {w : World}
    {op : Op}
    {a : Answer op}
    (hSilent : op.Silent) :
    (hostNext w op a).ledger = w.ledger := by
  rcases hostNext_ledger w op a with hSame | hAppend
  · exact hSame
  · rcases hAppend with ⟨record, hEq, _⟩
    subst hEq
    exact hSilent.elim

/- Every answer leaves the ledger a prefix of the next. -/
theorem hostNext_extends
    (w : World)
    (op : Op)
    (a : Answer op) :
    w.ledger <+: (hostNext w op a).ledger := by
  rcases hostNext_ledger w op a with hSame | hAppend
  · rw [hSame]
  · rcases hAppend with ⟨record, _, hLedger⟩
    rw [hLedger]
    exact List.prefix_append _ _

------------------------------------------------------------
-- Stored Records
------------------------------------------------------------

/- The record an answered request has stored. -/
def storedBy : (op : Op) → Answer op → Option SessionRecord
| .append record, .ok _ => some record
| _, _ => none

/- The records the steps of an execution have stored. -/
def storedIn
    (steps : List (Step Op Answer World)) :
    List SessionRecord :=
  steps.filterMap fun s => storedBy s.op s.answer

theorem storedIn_append
    (early late : List (Step Op Answer World)) :
    storedIn (early ++ late) =
      storedIn early ++ storedIn late :=
  List.filterMap_append

theorem storedIn_cons
    (s : Step Op Answer World)
    (rest : List (Step Op Answer World)) :
    storedIn (s :: rest) =
      (storedBy s.op s.answer).toList ++ storedIn rest := by
  unfold storedIn
  rw [List.filterMap_cons]
  cases storedBy s.op s.answer <;> rfl

/- What is stored has been appended. -/
theorem mem_storedIn
    {steps : List (Step Op Answer World)}
    {record : SessionRecord}
    (hMem : record ∈ storedIn steps) :
    ∃ s ∈ steps, s.op = .append record := by
  rcases List.mem_filterMap.mp hMem with ⟨s, hStep, hStored⟩
  refine ⟨s, hStep, ?_⟩
  unfold storedBy at hStored
  split at hStored
  · rename_i hOp _
    cases hStored
    exact hOp
  · cases hStored

theorem hostNext_stored
    (w : World)
    (op : Op)
    (a : Answer op) :
    (hostNext w op a).ledger =
      w.ledger ++ (storedBy op a).toList := by
  cases op with
  | append record =>
      cases a with
      | ok _ => rfl
      | error _ => exact (List.append_nil _).symm
  | setProjection snapshot =>
      cases a <;> exact (List.append_nil _).symm
  | _ => exact (List.append_nil _).symm

/- An execution appends what its steps have stored. -/
theorem exec_ledger
    {α : Type}
    {M : Machine Op Answer World}
    {w w' : World}
    {p : EngineM α}
    {steps : List (Step Op Answer World)}
    {r : Option (Except EngineError α)}
    (hNext : M.next = hostNext)
    (hExec : Exec M w p steps w' r) :
    w'.ledger = w.ledger ++ storedIn steps := by
  induction hExec with
  | stop => exact (List.append_nil _).symm
  | pure => exact (List.append_nil _).symm
  | throw => exact (List.append_nil _).symm
  | @request w w' op k a steps r hAllowed hRest ih =>
      rw [ih, hNext, hostNext_stored, List.append_assoc,
        storedIn_cons]

------------------------------------------------------------
-- Footprints Of Appends
------------------------------------------------------------

section Appends

variable {S : Op → Prop}

theorem uses_append
    {record : SessionRecord}
    (hRecord : S (.append record)) :
    Uses S (fun _ => True) (append record) :=
  ⟨hRecord, fun _ => trivial⟩

theorem uses_appendOrFail
    {V : Unit → Prop}
    {record : SessionRecord}
    (hRecord : S (.append record))
    (hValue : V ()) :
    Uses S V (appendOrFail record) := by
  refine ⟨hRecord, ?_⟩
  intro a
  cases a with
  | ok _ => exact hValue
  | error _ => trivial

theorem uses_newUuid
    (hUuid : S .newUuid) :
    Uses S (fun _ => True) newUuid :=
  ⟨hUuid, fun _ => trivial⟩

end Appends

------------------------------------------------------------
-- Safe Requests
------------------------------------------------------------

section Requests

variable {P : World → Op → Prop}
variable {R : EngineError → World → Prop}
variable {w : World}

theorem safe_append
    {Q : Except MemoryError Unit → World → Prop}
    {record : SessionRecord}
    (hRequest : P w (.append record))
    (hStored : Q (.ok ()) (w.append record))
    (hFailed : ∀ error, Q (.error error) w) :
    Safe host P Q R (append record) w := by
  refine ⟨hRequest, ?_⟩
  intro a _
  cases a with
  | ok _ => exact hStored
  | error error => exact hFailed error

theorem safe_appendOrFail
    {Q : Unit → World → Prop}
    {record : SessionRecord}
    (hRequest : P w (.append record))
    (hStored : Q () (w.append record))
    (hFailed : ∀ error, R (.memory error) w) :
    Safe host P Q R (appendOrFail record) w := by
  refine ⟨hRequest, ?_⟩
  intro a _
  cases a with
  | ok _ => exact hStored
  | error error => exact hFailed error

theorem safe_newUuid
    {Q : String → World → Prop}
    (hRequest : P w .newUuid)
    (hFresh : ∀ uuid, uuid ∉ w.issued →
      Q uuid { w with issued := uuid :: w.issued }) :
    Safe host P Q R newUuid w :=
  ⟨hRequest, fun uuid hNew => hFresh uuid hNew⟩

/- A program that appends nothing keeps the ledger. -/
theorem safe_silent
    {α : Type}
    {V : α → Prop}
    {p : EngineM α}
    (hUses : Uses Op.Silent V p)
    (hRequest : ∀ w op, op.Silent → P w op)
    (hThrow : ∀ e w, R e w) :
    Safe host P
      (fun a w' => V a ∧ w'.ledger = w.ledger) R p w := by
  refine Safe.mono (fun _ _ h => h) (fun _ _ h => h)
    (fun e w' _ => hThrow e w')
    (Uses.safe (I := fun w' : World => w'.ledger = w.ledger)
      hUses ?_ ?_ rfl)
  · intro w' op _ hSilent
    exact hRequest w' op hSilent
  · intro w' op a hLedger hSilent _
    show (hostNext w' op a).ledger = w.ledger
    rw [hostNext_ledger_of_silent hSilent, hLedger]

end Requests

------------------------------------------------------------
-- Growing Ledgers
------------------------------------------------------------

/- The ledger has grown by records of a kind only. -/
def Grown
    (kind : SessionRecord → Prop)
    (w w' : World) :
    Prop :=
  ∃ added, w'.ledger = w.ledger ++ added ∧
    ∀ record ∈ added, kind record

namespace Grown

variable {kind kind' : SessionRecord → Prop}
variable {w w' w'' : World}

theorem refl (w : World) : Grown kind w w :=
  ⟨[], by simp, by simp⟩

theorem of_eq
    (hLedger : w'.ledger = w.ledger) :
    Grown kind w w' :=
  ⟨[], by simp [hLedger], by simp⟩

theorem trans
    (hFirst : Grown kind w w')
    (hSecond : Grown kind w' w'') :
    Grown kind w w'' := by
  rcases hFirst with ⟨first, hLedger, hKind⟩
  rcases hSecond with ⟨second, hLedger', hKind'⟩
  refine ⟨first ++ second, ?_, ?_⟩
  · rw [hLedger', hLedger, List.append_assoc]
  · intro record hMem
    rcases List.mem_append.mp hMem with hOne | hTwo
    · exact hKind record hOne
    · exact hKind' record hTwo

theorem mono
    (hGrown : Grown kind w w')
    (hKind : ∀ record, kind record → kind' record) :
    Grown kind' w w' := by
  rcases hGrown with ⟨added, hLedger, hAdded⟩
  exact ⟨added, hLedger,
    fun record hMem => hKind record (hAdded record hMem)⟩

/- One answer adds at most the record it was asked to. -/
theorem next
    {op : Op}
    {a : Answer op}
    (hKind : ∀ record, op = .append record → kind record) :
    Grown kind w (hostNext w op a) := by
  rcases hostNext_ledger w op a with hSame | hAppend
  · exact .of_eq hSame
  · rcases hAppend with ⟨record, hOp, hLedger⟩
    refine ⟨[record], hLedger, ?_⟩
    intro other hMem
    rw [List.mem_singleton] at hMem
    subst hMem
    exact hKind other hOp

/- What every added record keeps is kept. -/
theorem keeps
    {I : List SessionRecord → Prop}
    (hGrown : Grown kind w w')
    (hAppend : ∀ records record, kind record → I records →
      I (records ++ [record]))
    (hInit : I w.ledger) :
    I w'.ledger := by
  rcases hGrown with ⟨added, hLedger, hKind⟩
  rw [hLedger]
  clear hLedger
  generalize w.ledger = records at hInit
  induction added generalizing records with
  | nil =>
      rw [List.append_nil]
      exact hInit
  | cons record rest ih =>
      rw [List.forall_mem_cons] at hKind
      rw [List.append_cons]
      exact ih hKind.2 _ (hAppend _ _ hKind.1 hInit)

end Grown

/- The footprint of a program bounds what it appends. -/
theorem safe_grown
    {α : Type}
    {S : Op → Prop}
    {V : α → Prop}
    {kind : SessionRecord → Prop}
    {p : EngineM α}
    {w : World}
    (hUses : Uses S V p)
    (hKind : ∀ record, S (.append record) → kind record) :
    Safe host (fun _ op => S op)
      (fun a w' => V a ∧ Grown kind w w')
      (fun _ w' => Grown kind w w') p w := by
  refine Uses.safe (I := fun w' : World => Grown kind w w')
    hUses (fun _ _ _ hOp => hOp) ?_ (.refl w)
  intro w' op a hGrown hOp _
  refine hGrown.trans (.next ?_)
  intro record hEq
  subst hEq
  exact hKind record hOp

------------------------------------------------------------
-- A Store That Answers
------------------------------------------------------------

section Answering

variable {C : World → (op : Op) → Answer op → Prop}
variable {P : World → Op → Prop}
variable {R : EngineError → World → Prop}
variable {w : World}

/- An append to a store that answers never fails. -/
theorem safe_append_answered
    {Q : Except MemoryError Unit → World → Prop}
    {record : SessionRecord}
    (hStore : ∀ w op a, C w op a → StoreAnswered op a)
    (hRequest : P w (.append record))
    (hStored : Q (.ok ()) (w.append record)) :
    Safe (host.restrict C) P Q R (append record) w := by
  refine ⟨hRequest, ?_⟩
  intro a hAllowed
  have hOk : a = .ok () := hStore _ _ _ hAllowed.2
  subst hOk
  exact hStored

theorem safe_appendOrFail_answered
    {Q : Unit → World → Prop}
    {record : SessionRecord}
    (hStore : ∀ w op a, C w op a → StoreAnswered op a)
    (hRequest : P w (.append record))
    (hStored : Q () (w.append record)) :
    Safe (host.restrict C) P Q R (appendOrFail record)
      w := by
  refine ⟨hRequest, ?_⟩
  intro a hAllowed
  have hOk : a = .ok () := hStore _ _ _ hAllowed.2
  subst hOk
  exact hStored

end Answering

end RainEngine
