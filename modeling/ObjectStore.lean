import ObjectStore.Json.Forms
import ObjectStore.Mount.Listing
import ObjectStore.Mount.Uploads
import ObjectStore.Script
import ObjectStore.Catalog
import ObjectStore.Store.Serving
import ObjectStore.Proofs.LastWriter
import ObjectStore.Proofs.Interleaving
import ObjectStore.Proofs.Directory
import ObjectStore.Proofs.Walk
import ObjectStore.Proofs.Frame
import ObjectStore.Proofs.Finished
import ObjectStore.Proofs.Completion
import ObjectStore.Proofs.PartList
import ObjectStore.Proofs.PartOrder
import ObjectStore.Proofs.TotalSize
import ObjectStore.Proofs.Sequence
import ObjectStore.Proofs.Consuming
import ObjectStore.Proofs.CatalogListing
import ObjectStore.Proofs.Listing.Responses
import ObjectStore.Proofs.CustomerKeys
import ObjectStore.Proofs.Isolation
import ObjectStore.Proofs.Strictness
import ObjectStore.Proofs.Reached
import ObjectStore.Proofs.Validation
import ObjectStore.Proofs.Addressing
import ObjectStore.Proofs.Listing.Names
import ObjectStore.Proofs.Resuming
import ObjectStore.Proofs.OpenUploads
import ObjectStore.Proofs.FlatListing
import ObjectStore.Proofs.Attributes
import ObjectStore.Proofs.Integrity
import ObjectStore.Proofs.Listing.Positions
import ObjectStore.Proofs.Windows
import ObjectStore.Proofs.Forms.Records
import ObjectStore.Proofs.WorkDirs
import ObjectStore.Proofs.Redaction
