import BucketBench.Client.AliasFile
import BucketBench.Client.Concurrent
import BucketBench.Client.ToolFormat
import BucketBench.Main
import BucketBench.Service.Tagging
import BucketBench.Service.Uploads
import BucketBench.Shell.Run
import BucketBench.Store.TimingDecoder
import BucketBench.Proofs.Json.WellKeyed
import BucketBench.Proofs.Store.Path
import BucketBench.Proofs.Outcome
import BucketBench.Proofs.Store.Edit
import BucketBench.Proofs.Store.Outline
import BucketBench.Proofs.Store.Independent
import BucketBench.Proofs.Store.Update
import BucketBench.Proofs.Service.Dialogue
import BucketBench.Proofs.Store.Identifier
import BucketBench.Proofs.Service.Upload
import BucketBench.Proofs.Json.Reader
import BucketBench.Proofs.Text.Base64
import BucketBench.Proofs.Text.Blank
import BucketBench.Proofs.Text.Utf8
import BucketBench.Proofs.Secret.Token
import BucketBench.Proofs.Json.Texts
import BucketBench.Proofs.Secret.Vault
import BucketBench.Proofs.Service.Stop
import BucketBench.Proofs.Service.Cleanup
import BucketBench.Proofs.Json.Alike
import BucketBench.Proofs.Store.Alike
import BucketBench.Proofs.Store.Distinct
import BucketBench.Proofs.Store.Plain
import BucketBench.Proofs.Store.Agreement
import BucketBench.Proofs.Client.Concurrent
import BucketBench.Proofs.Client.Verdict
import BucketBench.Proofs.TestConfig.Gather
import BucketBench.Proofs.Command.Assignment
import BucketBench.Proofs.Store.Setups
import BucketBench.Proofs.TestConfig.ReadBack
import BucketBench.Proofs.Text.Percent
import BucketBench.Proofs.Store.Connection
import BucketBench.Proofs.TestConfig.Pick
import BucketBench.Proofs.Service.Success
import BucketBench.Proofs.Service.Emptying
import BucketBench.Proofs.World.Files
import BucketBench.Proofs.Json.Pointer
import BucketBench.Proofs.Number.Digits
import BucketBench.Proofs.Number.Rounding
import BucketBench.Proofs.Number.Shortest
import BucketBench.Proofs.Json.Number
import BucketBench.Proofs.Json.Printer
import BucketBench.Proofs.Client.AliasFile
import BucketBench.Proofs.Store.Summary
import BucketBench.Proofs.Store.Repeat
import BucketBench.Proofs.Store.Order
import BucketBench.Proofs.World.Calendar
import BucketBench.Proofs.World.Timestamp
import BucketBench.Proofs.Command.Session
import BucketBench.Proofs.Command.Show
import BucketBench.Proofs.Command.Frame
import BucketBench.Proofs.Command.Recording
import BucketBench.Proofs.Store.Insertion
import BucketBench.Proofs.Secret.Decryption
import BucketBench.Proofs.Service.Listing
import BucketBench.Proofs.Service.Parts
import BucketBench.Proofs.Client.AliasKeys
import BucketBench.Proofs.Client.Template
import BucketBench.Proofs.Service.Deletion
import BucketBench.Proofs.Store.SetupListing
import BucketBench.Proofs.Client.ToolFormat
import BucketBench.Proofs.Client.Tags
import BucketBench.Proofs.Store.Change
import BucketBench.Proofs.Settings.Layers
