import BasicLang.Proofs.Progress.Gives

set_option autoImplicit false

namespace BasicLang

namespace Stmt

def isAlone : Stmt → Bool
  | .cond _ | .select _ _ | .forLoop _ _ _ _ _ _ | .whileLoop _ _ | .doLoop _ _ _ => false
  | _ => true

/-- Whether a statement goes up to its end: its last part is a list of any length, or nothing in the place of one. -/
def goesToEnd : Stmt → Bool
  | .print _ _ _ _ | .write _ _ | .data _ | .call _ _ | .close [] | .restore none => true
  | _ => false

end Stmt

namespace Reader

def Brings (property : Stmt → Cursor → Prop) (reader : Reader Stmt) : Prop :=
  ∀ (start after : Cursor) (stmt : Stmt), Gives reader start stmt after → property stmt after

section Brings

variable {α : Type} {property : Stmt → Cursor → Prop}

theorem brings_unit {stmt : Stmt} (holds : ∀ cursor, property stmt cursor) : Brings property (pure stmt) := by
  intro start after found gives
  rw [(gives_unit.mp gives).1]
  exact holds after

theorem brings_seq {first : Reader α} {next : α → Reader Stmt} (brings : ∀ value, Brings property (next value)) :
    Brings property (first >>= next) := by
  intro start after stmt gives
  obtain ⟨value, middle, -, gives⟩ := gives_seq.mp gives
  exact brings value middle after stmt gives

theorem brings_fail (kind : ParseErrorKind) (locus : Locus) : Brings property (fail kind locus) :=
  fun _ _ _ gives => (gives_fail gives).elim

theorem brings_fail_expected (expected : String) : Brings property (failExpected expected) :=
  fun _ _ _ gives => (gives_fail_expected gives).elim

def Plainly (property : Stmt → Cursor → Prop) : Prop :=
  ∀ stmt cursor, stmt.isAlone = true → stmt.goesToEnd = false → property stmt cursor

variable (plainly : Plainly property)

include plainly

theorem brings_plain {stmt : Stmt} (alone : stmt.isAlone = true) (short : stmt.goesToEnd = false) :
    Brings property (pure stmt) := brings_unit fun cursor => plainly stmt cursor alone short

theorem brings_let : Brings property letStmt :=
  brings_seq fun _ => brings_seq fun _ => brings_seq fun _ => brings_plain plainly rfl rfl

theorem brings_const : Brings property const :=
  brings_seq fun (_, _) => brings_seq fun _ => brings_seq fun _ => brings_plain plainly rfl rfl

theorem brings_input : Brings property input := by
  refine brings_seq fun file => ?_
  split
  · exact brings_seq fun _ => brings_plain plainly rfl rfl
  · refine brings_seq fun _ => brings_seq fun cursor => ?_
    split
    · split
      · exact brings_seq fun _ => brings_seq fun _ => brings_seq fun _ => brings_plain plainly rfl rfl
      · exact brings_seq fun _ => brings_plain plainly rfl rfl
    · exact brings_seq fun _ => brings_plain plainly rfl rfl

theorem brings_line_input : Brings property lineInput := by
  refine brings_seq fun _ => brings_seq fun file => ?_
  split
  · exact brings_seq fun _ => brings_plain plainly rfl rfl
  · refine brings_seq fun _ => brings_seq fun cursor => ?_
    split
    · split
      · refine brings_seq fun _ => brings_seq fun separates => ?_
        split
        · exact brings_seq fun _ => brings_seq fun _ => brings_plain plainly rfl rfl
        · exact brings_seq fun _ => brings_plain plainly rfl rfl
      · exact brings_seq fun _ => brings_plain plainly rfl rfl
    · exact brings_seq fun _ => brings_plain plainly rfl rfl

theorem brings_open_file : Brings property openFile :=
  brings_seq fun _ => brings_seq fun _ => brings_seq fun _ => brings_seq fun _ => brings_seq fun _ =>
    brings_seq fun _ => brings_plain plainly rfl rfl

theorem brings_exit : Brings property exit := by
  unfold exit
  iterate 5
    refine brings_seq fun accepted => ?_
    split
    · exact brings_plain plainly rfl rfl
  exact brings_fail_expected _

theorem brings_stop (locus : Locus) : Brings property (stop locus) := by
  refine brings_seq fun cursor => ?_
  split
  · split
    all_goals first | exact brings_plain plainly rfl rfl | exact brings_fail _ _
  · exact brings_plain plainly rfl rfl

theorem brings_on_event : Brings property onEvent :=
  brings_seq fun _ => brings_seq fun _ => brings_seq fun _ => brings_seq fun _ => brings_plain plainly rfl rfl

theorem brings_simple_stmt (token : Token) (prints : Brings property print)
    (names : ∀ name, Brings property (named name)) (closes : Brings property close) (writes : Brings property write)
    (lists : Brings property (do return .data (← commaList dataItem))) (restores : Brings property restore)
    (calls : token.kind = .keyword .CALL → Brings property call)
    (invokes : ∀ name, Brings property (do return .call name (← callArguments))) :
    Brings property (simpleStmt token) := by
  unfold simpleStmt
  split
  · exact brings_seq fun _ => brings_plain plainly rfl rfl
  · exact brings_seq fun _ => brings_plain plainly rfl rfl
  · refine brings_seq fun cursor => ?_
    split
    · exact brings_seq fun _ => brings_seq fun _ => brings_plain plainly rfl rfl
    · exact brings_fail _ _
  · exact names _
  · exact brings_fail _ _
  · exact brings_fail _ _
  · next keyword _ _ isKeyword =>
    dsimp only
    split
    · exact brings_seq fun _ => prints
    · exact brings_seq fun _ => brings_input plainly
    · exact brings_seq fun _ => brings_line_input plainly
    · exact brings_seq fun _ => brings_open_file plainly
    · exact brings_seq fun _ => closes
    · exact brings_seq fun _ => writes
    · exact brings_seq fun _ => brings_let plainly
    · exact brings_seq fun _ => brings_seq fun _ => brings_seq fun _ => brings_plain plainly rfl rfl
    · exact brings_seq fun _ => brings_seq fun _ => brings_seq fun _ => brings_plain plainly rfl rfl
    · exact brings_seq fun _ => brings_const plainly
    · exact brings_seq fun _ => brings_seq fun _ => brings_plain plainly rfl rfl
    · exact brings_seq fun _ => brings_seq fun _ => brings_plain plainly rfl rfl
    · exact brings_seq fun _ => brings_plain plainly rfl rfl
    · exact brings_seq fun _ => brings_exit plainly
    · exact brings_seq fun _ => brings_stop plainly _
    · exact brings_seq fun _ => brings_on_event plainly
    · exact brings_seq fun _ => lists
    · exact brings_seq fun _ => brings_seq fun _ => brings_plain plainly rfl rfl
    · exact brings_seq fun _ => restores
    · exact brings_seq fun _ => brings_seq fun (_, _) => brings_seq fun _ => brings_seq fun _ =>
        brings_plain plainly rfl rfl
    · exact brings_seq fun _ => brings_seq fun _ => brings_seq fun (_, _, _) => brings_plain plainly rfl rfl
    · exact brings_seq fun _ => calls isKeyword
    · split
      · exact brings_seq fun _ => brings_seq fun _ => brings_plain plainly rfl rfl
      · split
        · exact brings_seq fun _ => invokes _
        · exact brings_fail _ _
  · exact brings_fail _ _

end Brings

section Alone

abbrev Alone (reader : Reader Stmt) : Prop := Brings (fun stmt _ => stmt.isAlone = true) reader

theorem alone_unit {stmt : Stmt} (alone : stmt.isAlone = true) : Alone (pure stmt) := brings_unit fun _ => alone

theorem alone_print : Alone print :=
  brings_seq fun _ => brings_seq fun _ => by
    split
    · exact brings_seq fun _ => brings_seq fun _ => brings_seq fun _ => brings_seq fun _ => brings_seq fun _ =>
        alone_unit rfl
    · exact brings_seq fun _ => brings_seq fun _ => brings_seq fun _ => alone_unit rfl

theorem alone_named (name : String) : Alone (named name) := by
  refine brings_seq fun cursor => ?_
  split
  · exact brings_seq fun _ => brings_seq fun _ => alone_unit rfl
  · refine brings_seq fun target => brings_seq fun assigns => ?_
    split
    · exact brings_seq fun _ => alone_unit rfl
    · split
      · exact brings_seq fun _ => alone_unit rfl
      · refine brings_seq fun _ => brings_seq fun _ => brings_seq fun _ => ?_
        split
        · exact brings_seq fun _ => alone_unit rfl
        · exact alone_unit rfl
      · exact brings_fail_expected _

theorem alone_call : Alone call := by
  refine brings_seq fun (_, _) => brings_seq fun opens => ?_
  split
  · exact brings_seq fun _ => brings_seq fun _ => alone_unit rfl
  · exact brings_seq fun _ => alone_unit rfl

theorem alone_close : Alone close := by
  refine brings_seq fun cursor => ?_
  split
  · exact alone_unit rfl
  · exact brings_seq fun _ => alone_unit rfl

theorem alone_restore : Alone restore := by
  refine brings_seq fun cursor => ?_
  split
  · exact alone_unit rfl
  · exact brings_seq fun _ => alone_unit rfl

theorem alone_simple_stmt (token : Token) : Alone (simpleStmt token) :=
  brings_simple_stmt (fun _ _ alone _ => alone) token alone_print alone_named alone_close
    (brings_seq fun _ => brings_seq fun _ => alone_unit rfl) (brings_seq fun _ => alone_unit rfl) alone_restore
    (fun _ => alone_call) fun _ => brings_seq fun _ => alone_unit rfl

end Alone

end Reader

end BasicLang
