import Standin.FileTree.Change
import Standin.LogLevel
import Standin.Options.Load
import Standin.Proofs.Automock.AbstractDefault
import Standin.Proofs.Automock.ExportShape
import Standin.Proofs.Automock.Extent
import Standin.Proofs.Automock.Hygiene
import Standin.Proofs.Automock.Layout
import Standin.Proofs.Automock.Requests
import Standin.Proofs.Automock.RunTogether
import Standin.Proofs.Automock.ValueNames
import Standin.Proofs.Automock.WiredExports
import Standin.Proofs.Automock.WrittenNames
import Standin.Proofs.Extraction.Accounting
import Standin.Proofs.FileTree.Listing
import Standin.Proofs.Graph.History
import Standin.Proofs.Interception.Decorations
import Standin.Proofs.Interception.Redirects
import Standin.Proofs.Invalidation.Agreement
import Standin.Proofs.Invalidation.CachedForms
import Standin.Proofs.Invalidation.Status
import Standin.Proofs.Mock.FirstCalls
import Standin.Proofs.Mock.ManualSearch
import Standin.Proofs.Mock.OwnFile
import Standin.Proofs.Mock.ProjectFiles
import Standin.Proofs.Module.BundledIds
import Standin.Proofs.Module.FileIdentity
import Standin.Proofs.Module.Idempotence
import Standin.Proofs.Registration.SpyFlag
import Standin.Proofs.Reload.Delivery
import Standin.Proofs.Script.ImportLists
import Standin.Proofs.Script.LineEnds
import Standin.Proofs.Script.Literals
import Standin.Proofs.Script.Operands
import Standin.Proofs.Script.ShownParts
import Standin.Proofs.Script.Words
import Standin.Proofs.Session.Overlap
import Standin.Proofs.Session.Replacement
import Standin.Proofs.Session.Runs
import Standin.Proofs.Session.WatchedMocks
import Standin.Proofs.SourceEditor
import Standin.Session.Overlap
import Standin.Session.Plugin
import Standin.Wire
