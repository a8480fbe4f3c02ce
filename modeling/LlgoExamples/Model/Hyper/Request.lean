import LlgoExamples.Model.Hyper.Runtime

/-! # Preparing the request

Each string goes to hyper as a pointer into one copy with the length of another. -/

namespace LlgoExamples.Hyper

/-- `hyper.Code`. -/
inductive Code where
  | ok
  | error
  | invalidArg
  | unexpectedEOF
  | abortedByCallback
  | featureNotEnabled
  | invalidPeerMessage
  deriving DecidableEq, Repr

/-- The bytes a setter of hyper reads. -/
inductive RequestEvent where
  | setMethod (method : Bytes)
  | setURI (uri : Bytes)
  | setHeader (name value : Bytes)
  deriving DecidableEq, Repr

/-- What the setters answer. -/
structure RequestAnswers where
  setMethod : Code
  setURI : Code
  setHeader : Code
  deriving DecidableEq, Repr

/-- A pointer to the first byte of `s`, read for `c.Strlen` of its C copy. -/
def passed (s : Bytes) : Except Panic Bytes :=
  (firstByte s).map fun bytes => bytes.take (strlen s)

/-- The request set-up of `Get`: what was set, and the panic if there was one. -/
def prepareRequest (host path : Bytes) (answers : RequestAnswers) :
    Except Panic Unit × List RequestEvent :=
  let get := literal "GET"
  match passed get with
  | .error p => (.error p, [])
  | .ok method =>
    let log := [.setMethod method]
    if answers.setMethod ≠ .ok then
      (.error { text := "error setting method %s\n", args := [get] }, log)
    else match passed path with
      | .error p => (.error p, log)
      | .ok uri =>
        let log := log ++ [.setURI uri]
        if answers.setURI ≠ .ok then
          (.error { text := "error setting uri %s\n", args := [path] }, log)
        else match passed (literal "Host"), passed host with
          | .error p, _ => (.error p, log)
          | _, .error p => (.error p, log)
          | .ok name, .ok value =>
            let log := log ++ [.setHeader name value]
            if answers.setHeader ≠ .ok then (.error (.plain "error setting headers\n"), log)
            else (.ok (), log)

end LlgoExamples.Hyper
