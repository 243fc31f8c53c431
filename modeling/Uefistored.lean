import Uefistored.Lib.Bytes
import Uefistored.Lib.Slots
import Uefistored.Lib.Run
import Uefistored.Lib.Loop
import Uefistored.Types
import Uefistored.Name
import Uefistored.Variable
import Uefistored.Storage
import Uefistored.OpenSsl
import Uefistored.SigList
import Uefistored.Auth
import Uefistored.AuthLib
import Uefistored.Server
import Uefistored.Update
import Uefistored.Effect
import Uefistored.SecureBoot
import Uefistored.SignedName
import Uefistored.Distinct
import Uefistored.ReadOnly
import Uefistored.Written
import Uefistored.Replay
import Uefistored.PlatformKey
import Uefistored.Atomic
import Uefistored.Ownership
import Uefistored.Xapi
import Uefistored.Restart
import Uefistored.Occupancy
import Uefistored.VarMap
import Uefistored.Enumerate
import Uefistored.Rebuild
import Uefistored.Frame
import Uefistored.Persist
import Uefistored.OnePk
import Uefistored.SigCerts
import Uefistored.Esl
import Uefistored.DefaultKeys
import Uefistored.Status
import Uefistored.SetGet
import Uefistored.Answered
import Uefistored.RuntimeView
import Uefistored.Socket
import Uefistored.Decode
import Uefistored.Walk
import Uefistored.SaveFile
import Uefistored.Message
import Uefistored.Outgoing
import Uefistored.KekSearch
import Uefistored.Append
import Uefistored.IoLoop
import Uefistored.Modes
import Uefistored.Startup
import Uefistored.Durable
import Uefistored.Service
import Uefistored.Grow
import Uefistored.ContentInfo
import Uefistored.Session
import Uefistored.Inside
import Uefistored.Search
import Uefistored.Attempt
import Uefistored.Retry
import Uefistored.Descriptor
import Uefistored.Signer
import Uefistored.Room
import Uefistored.Trace
