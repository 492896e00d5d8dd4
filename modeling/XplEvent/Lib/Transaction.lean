/-!
# A connection with transactions

A connection to a database holds what is committed and, while a
transaction is open, the working copy it reads and writes. Outside a
transaction a write is committed at once. A statement that refuses leaves
the connection as it is.
-/

namespace Lib

variable {D : Type _}

/-- A connection. -/
structure Conn (D : Type _) where
  committed : D
  working : Option D

namespace Conn

/-- A connection without an open transaction. -/
def autocommit (d : D) : Conn D := ⟨d, none⟩

/-- What a statement reads. -/
def current (c : Conn D) : D := c.working.getD c.committed

/-- A statement that writes. -/
def write (c : Conn D) (f : D → D) : Conn D :=
  match c.working with
  | none => { c with committed := f c.committed }
  | some d => { c with working := some (f d) }

/-- `BEGIN`: there is no transaction within a transaction. -/
def begin (c : Conn D) : Option (Conn D) :=
  match c.working with
  | none => some { c with working := some c.committed }
  | some _ => none

/-- `COMMIT`: there must be a transaction. -/
def commit (c : Conn D) : Option (Conn D) := c.working.map autocommit

/-- `ROLLBACK`: there must be a transaction. -/
def rollback (c : Conn D) : Option (Conn D) := c.working.map fun _ => autocommit c.committed

/-- A connection within a transaction begun on `d`, or one without, over
the current database `d'`. -/
def session (open_ : Bool) (d d' : D) : Conn D := if open_ then ⟨d, some d'⟩ else autocommit d'

@[simp] theorem session_current (open_ : Bool) (d d' : D) : (session open_ d d').current = d' := by
  cases open_ with
  | true => rfl
  | false => rfl

@[simp] theorem session_write (open_ : Bool) (d d' : D) (f : D → D) :
    (session open_ d d').write f = session open_ d (f d') := by
  cases open_ with
  | true => rfl
  | false => rfl

theorem session_commit (open_ : Bool) (d d' : D) :
    (session open_ d d').commit.getD (session open_ d d') = autocommit d' := by
  cases open_ with
  | true => rfl
  | false => rfl

theorem session_rollback (open_ : Bool) (d d' : D) :
    (session open_ d d').rollback.getD (session open_ d d') =
      autocommit (if open_ then d else d') := by
  cases open_ with
  | true => rfl
  | false => rfl

theorem session_committed (open_ : Bool) (d d' : D) :
    (session open_ d d').committed = if open_ then d else d' := by
  cases open_ with
  | true => rfl
  | false => rfl

/-! ## What holds of a connection throughout -/

/-- The condition holds of what is committed and of the working copy. -/
structure All (Q : D → Prop) (c : Conn D) : Prop where
  committed : Q c.committed
  working : ∀ d, c.working = some d → Q d

variable {Q : D → Prop} {c c' : Conn D}

theorem All.of_autocommit {d : D} (h : Q d) : (autocommit d).All Q := ⟨h, fun _ hd => nomatch hd⟩

theorem All.imp {Q' : D → Prop} (hQ : ∀ d, Q d → Q' d) (h : c.All Q) : c.All Q' :=
  ⟨hQ _ h.committed, fun d hd => hQ d (h.working d hd)⟩

theorem All.current (h : c.All Q) : Q c.current := by
  rw [Conn.current]
  cases hworking : c.working with
  | none => exact h.committed
  | some d => exact h.working d hworking

theorem All.write {f : D → D} (hf : ∀ d, Q d → Q (f d)) (h : c.All Q) : (c.write f).All Q := by
  obtain ⟨committed, working⟩ := c
  cases working with
  | none => exact ⟨hf _ h.committed, fun _ hd => nomatch hd⟩
  | some d =>
    refine ⟨h.committed, fun d' hd' => ?_⟩
    cases hd'
    exact hf d (h.working d rfl)

theorem All.begin (h : c.All Q) (hc : c.begin = some c') : c'.All Q := by
  obtain ⟨committed, working⟩ := c
  cases working with
  | none =>
    cases hc
    refine ⟨h.committed, fun d hd => ?_⟩
    cases hd
    exact h.committed
  | some d => cases hc

theorem All.commit (h : c.All Q) (hc : c.commit = some c') : c'.All Q := by
  obtain ⟨d, hd, rfl⟩ := Option.map_eq_some_iff.mp hc
  exact .of_autocommit (h.working d hd)

theorem All.rollback (h : c.All Q) (hc : c.rollback = some c') : c'.All Q := by
  obtain ⟨d, -, rfl⟩ := Option.map_eq_some_iff.mp hc
  exact .of_autocommit h.committed

end Conn

end Lib
