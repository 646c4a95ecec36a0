import FluxRest.Py.Text
import FluxRest.Py.Exc
import FluxRest.Py.Json
import FluxRest.Py.Url
import FluxRest.Py.Http
import FluxRest.Flux
import FluxRest.Routes
import FluxRest.Handler
import FluxRest.Frame
import FluxRest.Body
import FluxRest.Response
import FluxRest.Trace
import FluxRest.Framing
import FluxRest.Effects
import FluxRest.Ops
import FluxRest.Errors
import FluxRest.Targets
import FluxRest.Invariant
import FluxRest.Broker
import FluxRest.Queue
import FluxRest.Serve.Loop
import FluxRest.Serve.Runs
import FluxRest.Serve.Stop
import FluxRest.Serve.Refusal
import FluxRest.Serve.Idle
import FluxRest.Serve.Peer
import FluxRest.Serve.Main
import FluxRest.Py.Quote
import FluxRest.Spelling
import FluxRest.Serve.Account
import FluxRest.Serve.Halt
import FluxRest.Serve.Answered
import FluxRest.Ensure
import FluxRest.Serve.Quiet
import FluxRest.Serve.Wait
import FluxRest.Submission
import FluxRest.Serve.Path
import FluxRest.Py.Head
import FluxRest.Ensure.Handler
import FluxRest.Ensure.Start
import FluxRest.Ensure.Answer
import FluxRest.Ensure.Polkit
import FluxRest.Openapi
import FluxRest.Py.Loads
import FluxRest.Client
import FluxRest.Contract
import FluxRest.Serial
import FluxRest.Serve.Ledger
import FluxRest.Deployment
import FluxRest.Serve.Log
