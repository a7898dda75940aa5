import CrudGen.Server.Generation
import CrudGen.Server.Go.Emitter
import CrudGen.Server.Java.Emitter
import CrudGen.Server.Python.Emitter
import CrudGen.Server.Rust.Emitter
import CrudGen.Server.TypeScript.Emitter
import CrudGen.Target.BuiltIn

/-!
# Known emitters

The emitters that servers are generated with unless others are asked for.
-/

namespace CrudGen

/-- The known emitters. -/
def EmitterSet.builtIn : EmitterSet :=
  .ofList [
    (⟨"rust", "axum"⟩, Rust.emitter .axum),
    (⟨"rust", "actix"⟩, Rust.emitter .actix),
    (⟨"typescript", "express"⟩, TypeScript.emitter .express),
    (⟨"typescript", "nestjs"⟩, TypeScript.emitter .nest),
    (⟨"python", "fastapi"⟩, Python.emitter .fastApi),
    (⟨"python", "flask"⟩, Python.emitter .flask),
    (⟨"go", "gin"⟩, Go.emitter .gin),
    (⟨"go", "echo"⟩, Go.emitter .echo),
    (⟨"java", "spring"⟩, Java.emitter)]

/-- The known profiles with the known emitters. -/
def Generator.builtIn : Generator where
  profiles := .builtIn
  emitters := .builtIn

end CrudGen
