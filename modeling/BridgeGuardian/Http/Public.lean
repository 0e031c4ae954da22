import BridgeGuardian.Http.Admin
import BridgeGuardian.Telemetry.Register

/-! # The public service

    ```text
    GET /health
    GET /status
    GET /metrics
    ``` -/

namespace BridgeGuardian.Http.Public

/-- How far the events of contracts have been read; what storage does not
    tell is left open. -/
def progress : List String → Program Surroundings (List Json)
  | [] => return []
  | contract :: rest => do
      let answer : Except StoreFault (Option UInt64) ←
        Surroundings.ask (.store (.nextIndex contract))
      let index := answer.toOption.join
      let others ← progress rest
      return .record [("address", .text contract),
        ("next_event_index", .option (index.map fun n => .nat n.toNat))] :: others

/-- Report on contracts. -/
def status (contracts : List String) : Program Surroundings Response := do
  return .ok (.record [("status", .text "ok"), ("contracts", .array (← progress contracts))])

/-- Answer a request from what has been measured. -/
def answer (contracts : List String) (register : Register) (request : Request) :
    Program Surroundings Response :=
  match Path.ofTarget request.target with
  | "/health" => AdminService.onGet request (return ⟨200, .text "text/plain; charset=utf-8" "OK"⟩)
  | "/status" => AdminService.onGet request (status contracts)
  | "/metrics" =>
      AdminService.onGet request
        (return ⟨200, .text "text/plain; version=0.0.4" register.publish⟩)
  | _ => return .bare 404

end BridgeGuardian.Http.Public
