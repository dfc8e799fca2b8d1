import BasicLang.Proofs.Code.ExprCode
import BasicLang.Proofs.Files.ConsoleFields

set_option autoImplicit false

namespace BasicLang

-- The code of a statement is that of its arguments and a call of a builtin. Its arguments may make variables, so that
-- their code on a machine is compared with values that are pushed on another one.

namespace Run

variable {σ : Type} {setup : Setup σ} {context : EmitContext} {locus : Locus} {machine start : Machine σ}

open Emit (Writes writes_op writes_seq)

def recover (builtin : Builtin) (error : RuntimeError) : Run σ Unit := do
  if error.isRecoverable then
    setStatus error.code
    match builtin.signature.returns with
    | some ty => if (← get).pending.isNone then push ty.default
    | none => return
  else throw error

theorem syscall_found {builtin : Builtin} (found : setup.registry.lookup? builtin.name = some builtin) :
    syscall setup builtin.name = tryCatch (Run.builtin setup.devices builtin) (recover builtin) := by
  rw [syscall, found]
  rfl

theorem code_seq {ops more : List Op} {first next : Run σ Unit}
    (does : (straight setup ops).on machine = first.on start)
    (rest : ∀ after, first.on start = (.ok (), after) → (straight setup more).on after = next.on after) :
    (straight setup (ops ++ more)).on machine = (do first; next : Run σ Unit).on start := by
  rw [straight_append, on_bind, on_bind, does]
  cases ran : first.on start with
  | mk result after =>
    cases result with
    | error error => rfl
    | ok _ => exact rest after ran

theorem on_code {ops : List Op} {pushes : Run σ Unit} (action : Run σ Unit)
    (arguments : (straight setup ops).on machine = pushes.on start) :
    (do straight setup ops; action : Run σ Unit).on machine = (do pushes; action : Run σ Unit).on start := by
  rw [on_bind, on_bind, arguments]

theorem catch_seq {pushes action : Run σ Unit} {handle : RuntimeError → Run σ Unit} {after : Machine σ}
    (pushed : pushes.on machine = (.ok (), after)) :
    (do pushes; tryCatch action handle : Run σ Unit).on machine =
      Run.on (tryCatch (do pushes; action) handle) machine := by
  rw [on_seq pushed, on_catch, on_catch, on_seq pushed]

theorem on_builtin_call {builtin : Builtin} {ops : List Op} {pushes : Run σ Unit} {after : Machine σ}
    (found : setup.registry.lookup? builtin.name = some builtin)
    (arguments : (straight setup ops).on machine = pushes.on start) (pushed : pushes.on start = (.ok (), after)) :
    (straight setup (ops ++ [.syscall builtin.name])).on machine =
      Run.on (tryCatch (do pushes; Run.builtin setup.devices builtin) (recover builtin)) start := by
  rw [straight_append, straight_one, execute, on_code _ arguments, syscall_found found, catch_seq pushed]

theorem execute_integer (number : Nat) :
    execute setup (.pushConst (.integer (Int16.ofNat number))) = (pushInteger number : Run σ Unit) := by
  rw [execute, pushInteger, Int16.ofInt_eq_ofNat]

theorem argument_pushed {ops : List Op} {value : Value} {environment : Environment}
    (computes : Computes setup ops machine (.ok (value, environment)) (Pushed machine.stack)) :
    ∃ start, (straight setup ops).on machine = (push value : Run σ Unit).on start ∧ machine.Extends start ∧
      start.Sound ∧ start.environment = environment := by
  obtain ⟨after, ran, extends_, sound, same, left⟩ := computes
  refine ⟨{ after with stack := machine.stack }, ?_, extends_.stack _, sound.stack _, same⟩
  rw [ran, on_push, ← left]

theorem literal_pushed {number : Int} {info : ExprInfo} (least : -32768 ≤ number) (most : number ≤ 32767) :
    ∃ ops, Writes ops (Emit.value context (.literal (.integer number) info)) ∧
      (straight setup ops).on machine = (pushInteger number : Run σ Unit).on machine := by
  refine ⟨_, writes_op _, ?_⟩
  rw [straight_one, execute, Literal.value, if_pos ⟨least, most⟩]
  rfl

theorem open_code {path file : Expr} {mode : FileMode} {pathOps fileOps : List Op} {title : String} {number : Int}
    (writesPath : Writes pathOps (Emit.value context path)) (writesFile : Writes fileOps (Emit.value context file))
    (arguments : (straight setup (pathOps ++ ([.pushConst (.integer (Int16.ofNat mode.code))] ++ fileOps))).on machine =
      (do pushText title; pushInteger mode.code; pushInteger number : Run σ Unit).on start) :
    ∃ ops, Writes ops (Emit.stmt context locus (.openFile path mode file)) ∧
      (do straight setup ops; service setup : Run σ Unit).on machine =
        (openStatement setup title mode number).on start := by
  refine ⟨pathOps ++ ([.pushConst (.integer (Int16.ofNat mode.code))] ++ (fileOps ++ [.syscall Builtin.openFile.name])),
    ?_, ?_⟩
  · rw [Emit.stmt]
    exact writes_seq writesPath (writes_seq (writes_op _) (writes_seq writesFile (writes_op _)))
  · rw [← List.append_assoc _ fileOps, ← List.append_assoc, straight_append, straight_one, execute, bind_assoc,
      on_code _ arguments]
    simp only [openStatement, bind_assoc]

theorem close_code {file : Expr} {fileOps : List Op} {number : Int}
    (writes : Writes fileOps (Emit.value context file))
    (arguments : (straight setup fileOps).on machine = (pushInteger number : Run σ Unit).on start) :
    ∃ ops, Writes ops (Emit.stmt context locus (.close [file])) ∧
      (do straight setup ops; service setup : Run σ Unit).on machine = (closeStatement setup number).on start := by
  refine ⟨fileOps ++ ([.pushConst (.integer (Int16.ofNat 1))] ++ [.syscall Builtin.closeFile.name]) ++ [], ?_, ?_⟩
  · have closes : Writes (fileOps ++ ([.pushConst (.integer (Int16.ofNat 1))] ++ [.syscall Builtin.closeFile.name]))
        (do Emit.value context file; Emit.pushCount 1; Emit.syscall .closeFile) :=
      writes_seq writes (writes_seq (writes_op _) (writes_op _))
    exact @writes_seq _ _ _ (fun _ => pure ()) closes Emit.writes_unit
  · rw [List.append_nil, straight_append, straight_append, straight_one, straight_one, execute_integer, execute,
      bind_assoc, on_code _ arguments]
    simp only [closeStatement, bind_assoc, pushCount]
    rfl

theorem write_code {file : Expr} {sources : List Expr} {fileOps sourceOps : List Op} {number : Int} {values : List Value}
    (writesFile : Writes fileOps (Emit.value context file))
    (writesSources : Writes sourceOps (Emit.values context sources)) (counted : sources.length = values.length)
    (selects : (straight setup fileOps).on machine = (pushInteger number : Run σ Unit).on start)
    (arguments : ∀ selected,
      (do pushInteger number; syscall setup Builtin.selectOutput.name : Run σ Unit).on start = (.ok (), selected) →
        (straight setup sourceOps).on selected = (values.forM push : Run σ Unit).on selected) :
    ∃ ops, Writes ops (Emit.stmt context locus (.write (some file) sources)) ∧
      (straight setup ops).on machine = (writeStatement setup number values).on start := by
  refine ⟨fileOps ++ [.syscall Builtin.selectOutput.name] ++
    (sourceOps ++ ([.pushConst (.integer (Int16.ofNat (min sources.length 32767)))] ++ [.syscall Builtin.write.name]) ++
      ([.pushConst (.integer 0)] ++ [.syscall Builtin.selectOutput.name])), ?_, ?_⟩
  · exact writes_seq (writes_seq writesFile (writes_op _))
      (writes_seq (writes_seq writesSources (writes_seq (writes_op _) (writes_op _)))
        (writes_seq (writes_op _) (writes_op _)))
  · have selected : (straight setup (fileOps ++ [.syscall Builtin.selectOutput.name])).on machine =
        (do pushInteger number; syscall setup Builtin.selectOutput.name : Run σ Unit).on start := by
      rw [straight_append, straight_one, execute, on_code _ selects]
    have assembled : writeStatement setup number values = (do
        (do pushInteger number; syscall setup Builtin.selectOutput.name)
        (do
          values.forM push
          pushCount values.length
          syscall setup Builtin.write.name
          pushInteger 0
          syscall setup Builtin.selectOutput.name) : Run σ Unit) := by
      simp only [writeStatement, bind_assoc]
    rw [assembled]
    refine code_seq selected fun after ran => ?_
    simp only [straight_append, straight_one, bind_assoc, execute_integer, counted]
    exact on_code _ (arguments after ran)

theorem execute_count (count : Nat) :
    execute setup (.pushConst (.integer (Int16.ofNat (min count 32767)))) = (pushCount count : Run σ Unit) :=
  execute_integer _

section Targets

variable {targets : List Expr} {targetOps : List Op} {cells : List Cell}

theorem on_counted_call {builtin : Builtin} {ops : List Op} {fixed : Run σ Unit} {between : Machine σ}
    (counted : targets.length = cells.length) (found : setup.registry.lookup? builtin.name = some builtin)
    (arguments : (straight setup ops).on machine = (do fixed; cells.forM pushReference : Run σ Unit).on start)
    (pushed : fixed.on start = (.ok (), between)) :
    (straight setup (ops ++ [.pushConst (.integer (Int16.ofNat (min targets.length 32767)))] ++
        [.syscall builtin.name])).on machine =
      Run.on (tryCatch (do fixed; cells.forM pushReference; pushCount cells.length; Run.builtin setup.devices builtin)
        (recover builtin)) start := by
  have pushes : (straight setup (ops ++ [.pushConst (.integer (Int16.ofNat (min targets.length 32767)))])).on machine =
      (do (do fixed; cells.forM pushReference); pushCount cells.length : Run σ Unit).on start := by
    rw [straight_append, straight_one, execute_count, counted, on_code _ arguments]
  have ended : (do (do fixed; cells.forM pushReference); pushCount cells.length : Run σ Unit).on start =
      (.ok (), { between with stack := .value (.integer (Int16.ofInt (min cells.length 32767 : Nat))) ::
        (cells.reverse.map .reference ++ between.stack) }) := by
    rw [bind_assoc, on_seq pushed, on_seq (on_push_references _)]
    rfl
  rw [on_builtin_call found pushes ended]
  simp only [bind_assoc]

theorem file_input_code {file : Expr} {fileOps : List Op} {number : Int} (counted : targets.length = cells.length)
    (standard : setup.registry = .standard) (writesFile : Writes fileOps (Emit.value context file))
    (writesTargets : Writes targetOps (Emit.references context targets))
    (arguments : (straight setup (fileOps ++ targetOps)).on machine =
      (do pushInteger number; cells.forM pushReference : Run σ Unit).on start) :
    ∃ ops, Writes ops (Emit.stmt context locus (.fileInput file targets false)) ∧
      (straight setup ops).on machine =
        Run.on (tryCatch (inputFields setup.devices number cells) (recover .fileInput)) start ∧
      (straight setup ops).on machine = (inputStatement setup number cells).on start := by
  have found := Setup.standard_lookup standard .fileInput
  refine ⟨fileOps ++ targetOps ++ [.pushConst (.integer (Int16.ofNat (min targets.length 32767)))] ++
    [.syscall Builtin.fileInput.name], ?_, on_counted_call counted found arguments (on_push_integer _), ?_⟩
  · rw [List.append_assoc, List.append_assoc, Emit.stmt]
    exact writes_seq writesFile (writes_seq writesTargets (writes_seq (writes_op _) (writes_op _)))
  · rw [List.append_assoc, straight_append, on_code _ arguments, straight_append, straight_one, straight_one,
      execute_count, execute, counted]
    simp only [inputStatement, bind_assoc]

theorem line_input_code {file target : Expr} {fileOps : List Op} {number : Int} {cell : Cell}
    (standard : setup.registry = .standard) (writesFile : Writes fileOps (Emit.value context file))
    (writesTarget : Writes targetOps (Emit.references context [target]))
    (arguments : (straight setup (fileOps ++ targetOps)).on machine =
      (do pushInteger number; pushReference cell : Run σ Unit).on start) :
    ∃ ops, Writes ops (Emit.stmt context locus (.fileInput file [target] true)) ∧
      (straight setup ops).on machine =
        Run.on (tryCatch (inputLine setup.devices number cell) (recover .fileLineInput)) start := by
  have found := Setup.standard_lookup standard .fileLineInput
  refine ⟨fileOps ++ targetOps ++ [.syscall Builtin.fileLineInput.name], ?_, ?_⟩
  · rw [List.append_assoc, Emit.stmt]
    exact writes_seq writesFile (writes_seq writesTarget (writes_op _))
  · have pushed : (do pushInteger number; pushReference cell : Run σ Unit).on start = (.ok (), { start with
        stack := .reference cell :: .value (.integer (Int16.ofInt number)) :: start.stack }) := rfl
    rw [on_builtin_call found arguments pushed]
    simp only [inputLine, bind_assoc]

theorem input_code {prompt : Option String} {question : Bool} (counted : targets.length = cells.length)
    (standard : setup.registry = .standard) (writes : Writes targetOps (Emit.references context targets))
    (arguments : (straight setup ([.pushConst (.string (Emit.promptText prompt question))] ++ targetOps)).on machine =
      (do pushText (Emit.promptText prompt question); cells.forM pushReference : Run σ Unit).on start) :
    ∃ ops, Writes ops (Emit.stmt context locus (.input prompt question targets)) ∧
      (straight setup ops).on machine = Run.on (tryCatch
        (askFields setup.devices (Emit.promptText prompt question) cells) (recover .input)) start := by
  have found := Setup.standard_lookup standard .input
  refine ⟨[.pushConst (.string (Emit.promptText prompt question))] ++ targetOps ++
    [.pushConst (.integer (Int16.ofNat (min targets.length 32767)))] ++ [.syscall Builtin.input.name], ?_,
    on_counted_call counted found arguments (on_push _ _)⟩
  rw [List.append_assoc, List.append_assoc, Emit.stmt]
  exact writes_seq (writes_op _) (writes_seq writes (writes_seq (writes_op _) (writes_op _)))

end Targets

theorem end_code {file : Expr} {info : ExprInfo} {fileOps : List Op} {number : Int} (standard : setup.registry = .standard)
    (known : context.registry.function? Builtin.eof.name = some .eof)
    (writes : Writes fileOps (Emit.value context file))
    (arguments : (straight setup fileOps).on machine = (pushInteger number : Run σ Unit).on start) :
    ∃ ops, Writes ops (Emit.value context (.apply Builtin.eof.name [file] .builtin info)) ∧
      (straight setup ops).on machine =
        Run.on (tryCatch (askEnd setup.devices number) (recover .eof)) start := by
  have found := Setup.standard_lookup standard .eof
  refine ⟨fileOps ++ [.syscall Builtin.eof.name], ?_, on_builtin_call found arguments (on_push_integer _)⟩
  have one : Writes (fileOps ++ []) (Emit.builtinArguments context false [file]) := by
    rw [Emit.builtinArguments]
    exact writes_seq writes Emit.writes_unit
  rw [List.append_nil] at one
  rw [Emit.value]
  dsimp only
  rw [known]
  exact writes_seq one (writes_op _)

end Run

end BasicLang
