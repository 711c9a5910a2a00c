import RsmpGateway.Transport.Frame
import RsmpGateway.Auth.SaveLog
import RsmpGateway.Auth.RoundTrip
import RsmpGateway.Auth.Secret
import RsmpGateway.Cyber.Connection
import RsmpGateway.Lib.Rotation
import RsmpGateway.Cyber.Network
import RsmpGateway.Cyber.Rotation
import RsmpGateway.Cyber.Refinement
import RsmpGateway.Cyber.Agreement
import RsmpGateway.Cyber.Reply
import RsmpGateway.Coder.Timestamp
import RsmpGateway.Lib.Json
import RsmpGateway.Lib.Outcome
import RsmpGateway.Crypt.Aes
import RsmpGateway.Coder.Encrypted
import RsmpGateway.Coder.RoundTrip
import RsmpGateway.Cyber.Session
import RsmpGateway.Cyber.AllClear
import RsmpGateway.Cyber.Renewal
import RsmpGateway.Cyber.Exchange
import RsmpGateway.Cyber.Reception
import RsmpGateway.Gateway.Versions
import RsmpGateway.Lib.Ends
import RsmpGateway.Lib.Trace
import RsmpGateway.Rsmp.Array
import RsmpGateway.Rsmp.Capacity
import RsmpGateway.Rsmp.Command
import RsmpGateway.Rsmp.Faithful
import RsmpGateway.Coder.Challenge
import RsmpGateway.Coder.Window
import RsmpGateway.Gateway.Login
import RsmpGateway.Gateway.Classes
import RsmpGateway.Lib.Quoted
import RsmpGateway.Lib.CString
import RsmpGateway.Lib.Search
import RsmpGateway.Rsmp.Registry
import RsmpGateway.Rsmp.Status
import RsmpGateway.Rsmp.Answer
import RsmpGateway.Rsmp.DispRequest
import RsmpGateway.Lib.Memory
import RsmpGateway.Crypt.Base64Memory
import RsmpGateway.Crypt.Base64Canonical
import RsmpGateway.Crypt.BcdMemory
import RsmpGateway.Crypt.Envelope
import RsmpGateway.Auth.PwdMemory
import RsmpGateway.Auth.Atomic
import RsmpGateway.Auth.Objects
import RsmpGateway.Auth.Identity
import RsmpGateway.Coder.Isolation
import RsmpGateway.Lib.Fifo
import RsmpGateway.Lib.Ring
import RsmpGateway.Sync.LdcMutex
import RsmpGateway.Sync.Queue
import RsmpGateway.Rsmp.Keys
import RsmpGateway.Cyber.Wait
import RsmpGateway.Cyber.Handshake
import RsmpGateway.Cyber.CipherAgreement
import RsmpGateway.Coder.Extraction
import RsmpGateway.Lib.Locks
import RsmpGateway.Auth.Locks
import RsmpGateway.Auth.Balance
import RsmpGateway.Auth.Discipline
import RsmpGateway.Auth.Chains
import RsmpGateway.Auth.ChainSteps
import RsmpGateway.Auth.Iteration
import RsmpGateway.Lib.Chunks
import RsmpGateway.Rsmp.Contents
import RsmpGateway.Rsmp.ArrayList
import RsmpGateway.Rsmp.ArrayRefine
import RsmpGateway.Rsmp.ArrayCmp
import RsmpGateway.Rsmp.Negotiation
import RsmpGateway.Rsmp.Options
import RsmpGateway.Lib.Members
import RsmpGateway.Rsmp.DispCodec
import RsmpGateway.Rsmp.DispRoundTrip
import RsmpGateway.Rsmp.DispCapability
import RsmpGateway.Rsmp.DispDecode
import RsmpGateway.Lib.Dialogue
import RsmpGateway.Lib.Heartbeat
import RsmpGateway.Gateway.Dispatch
import RsmpGateway.Gateway.Dialogue
import RsmpGateway.Gateway.Supervision
import RsmpGateway.Gateway.KeepAlive
import RsmpGateway.Gateway.Delivery
import RsmpGateway.Gateway.Stages
import RsmpGateway.Gateway.Peers
import RsmpGateway.Lib.Alarm
import RsmpGateway.Cyber.Timer
import RsmpGateway.Cyber.TimerRuns
import RsmpGateway.Gateway.Traffic
import RsmpGateway.Gateway.Payloads
import RsmpGateway.Cyber.Vault
import RsmpGateway.Cyber.VaultNet
import RsmpGateway.Gateway.Vaults
import RsmpGateway.Gateway.Stack
