import ResourceTypes.Session

/-!
Requests to a session, which answers them one after another. Compiling a
document and clearing are the only requests that can change what is remembered.
-/

namespace ResourceTypes

namespace Session

inductive Request where
  | compile (schema : Json)
  | compileDocument (id : String) (schema : Json)
  | validate (schema : Json)
  | validateDocument (id : String) (schema : Json)
  | clear

def Request.isClear : Request → Bool
  | .clear => true
  | _ => false

inductive Answer where
  | compiled (result : Except CompileError TypeDescriptor)
  | validated (report : Report)
  | cleared

/-- The answer to a request, and the session after it. -/
def step (session : Session) : Request → Answer × Session
  | .compile schema => (.compiled (session.compile schema), session)
  | .compileDocument id schema =>
    let (result, session) := session.compileDocument id schema
    (.compiled result, session)
  | .validate schema => (.validated (session.validate schema), session)
  | .validateDocument id schema => (.validated (session.validateDocument id schema), session)
  | .clear => (.cleared, session.clear)

/-- The session after requests, one after another. -/
def afterAll (session : Session) (requests : List Request) : Session :=
  requests.foldl (fun session request => (session.step request).2) session

end Session

end ResourceTypes
