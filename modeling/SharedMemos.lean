import SharedMemos.Json.Parser
import SharedMemos.Lock.Keyed
import SharedMemos.Server.Api
import SharedMemos.Server.Uploads.Sweep
import SharedMemos.Time.Stored
import SharedMemos.Bytes.Deflate
import SharedMemos.Proofs.Filter.Evaluation
import SharedMemos.Proofs.Filter.Prefilter
import SharedMemos.Proofs.Memo.Tag
import SharedMemos.Proofs.Query.Clause
import SharedMemos.Proofs.Server.Execution
import SharedMemos.Proofs.Server.Listing
import SharedMemos.Proofs.Bytes.Blob
import SharedMemos.Proofs.Lookup
import SharedMemos.Proofs.Storage.Tree
import SharedMemos.Proofs.Storage.Disk
import SharedMemos.Proofs.Storage.ObjectStore
import SharedMemos.Proofs.Server.Database
import SharedMemos.Proofs.Server.Holdings
import SharedMemos.Proofs.Server.Objects
import SharedMemos.Proofs.Server.Thumbnails
import SharedMemos.Proofs.Server.Uploads.Chunks
import SharedMemos.Proofs.Attachment.Filename
import SharedMemos.Proofs.Server.Keys
import SharedMemos.Proofs.Server.Contract
import SharedMemos.Proofs.Server.Attachments.Soundness
import SharedMemos.Proofs.Server.Attachments.Deeds
import SharedMemos.Proofs.Server.Attachments.Contracts
import SharedMemos.Proofs.Server.Uploads.Contracts
import SharedMemos.Proofs.Server.Runs
import SharedMemos.Proofs.Server.Contents
import SharedMemos.Proofs.Filter.Clock
import SharedMemos.Proofs.Time.Instant
import SharedMemos.Proofs.Server.Memos.Writes
import SharedMemos.Proofs.Server.Memos.Changes
import SharedMemos.Proofs.Server.Memos.Removals
import SharedMemos.Proofs.Server.Memos.Replica
import SharedMemos.Proofs.Query.Visibility
import SharedMemos.Proofs.Filter.Literals
import SharedMemos.Proofs.Filter.Soundness
import SharedMemos.Proofs.Server.Comparison
import SharedMemos.Proofs.Server.Privacy
import SharedMemos.Proofs.Server.Uploads.Scratch
import SharedMemos.Proofs.Server.Uploads.Sessions
import SharedMemos.Proofs.Server.Sparing
import SharedMemos.Proofs.Server.Isolation
import SharedMemos.Proofs.Filter.Expansion
import SharedMemos.Proofs.Filter.Grammar
import SharedMemos.Proofs.Filter.Names
import SharedMemos.Proofs.Filter.Token
import SharedMemos.Proofs.Filter.Height
import SharedMemos.Proofs.Filter.Guard
import SharedMemos.Proofs.Filter.Alpha
import SharedMemos.Proofs.Filter.Renaming
import SharedMemos.Proofs.Query.Reading
import SharedMemos.Proofs.Query.Fragment
import SharedMemos.Proofs.Server.Together
import SharedMemos.Proofs.Server.Memos.Amendments
import SharedMemos.Proofs.Server.Memos.Overlaps
import SharedMemos.Proofs.Storage.Absence
import SharedMemos.Proofs.Server.Attachments.Touching
import SharedMemos.Proofs.Server.Attachments.Following
import SharedMemos.Proofs.Server.Attachments.Removal
import SharedMemos.Proofs.Server.Memos.Stamps
import SharedMemos.Proofs.Server.Memos.Progress
import SharedMemos.Proofs.Server.Memos.Traffic
import SharedMemos.Proofs.Decimal.Rounding
import SharedMemos.Proofs.Decimal.Shortest
import SharedMemos.Proofs.Json.Number
import SharedMemos.Proofs.Json.Quote
import SharedMemos.Proofs.Json.Record
import SharedMemos.Proofs.Memo.Location
import SharedMemos.Proofs.Memo.Normal
import SharedMemos.Proofs.Server.Memos.Soundness
import SharedMemos.Proofs.Filter.Completeness
import SharedMemos.Proofs.Lock.Soundness
import SharedMemos.Proofs.Lock.Entries
import SharedMemos.Proofs.Lock.Fairness
import SharedMemos.Proofs.Server.Schedules
import SharedMemos.Proofs.Server.Uploads.Phases
import SharedMemos.Proofs.Server.Uploads.Closing
import SharedMemos.Proofs.Server.Uploads.Races
import SharedMemos.Proofs.Server.Uploads.Addresses
import SharedMemos.Proofs.Server.Attachments.Failure
import SharedMemos.Proofs.Filter.Printing
import SharedMemos.Proofs.Server.Uploads.Commit
import SharedMemos.Proofs.Filter.TagTest
import SharedMemos.Proofs.Filter.Kleene
import SharedMemos.Proofs.Filter.Stack
import SharedMemos.Proofs.Filter.Scope
import SharedMemos.Proofs.Upload.Target
import SharedMemos.Proofs.Attachment.Range
import SharedMemos.Proofs.Server.Attachments.Download
import SharedMemos.Proofs.Server.Uploads.Sweeping
import SharedMemos.Storage.Temporary
import SharedMemos.Proofs.Storage.Temporary
import SharedMemos.Proofs.Storage.Flat
import SharedMemos.Proofs.Memo.Line
import SharedMemos.Proofs.Memo.Property
import SharedMemos.Proofs.Upload.Run
import SharedMemos.Proofs.Text.Ascii
import SharedMemos.Proofs.Filter.Writing
import SharedMemos.Proofs.Attachment.Keys
