import PathRouter.Catalogue
import PathRouter.Session
import PathRouter.Template.DynamicScan
import PathRouter.Proofs.Dispatch.Sorting
import PathRouter.Proofs.Dispatch.Specificity
import PathRouter.Proofs.Matcher.Captures
import PathRouter.Proofs.Matcher.Filling
import PathRouter.Proofs.Priority.OrderIndependence
import PathRouter.Proofs.Priority.PairwiseLaw
import PathRouter.Proofs.Router.Sessions
import PathRouter.Proofs.Table.Agreement
import PathRouter.Proofs.Table.Liveness
import PathRouter.Proofs.Router.Refusal
import PathRouter.Proofs.Table.Addition
import PathRouter.Proofs.Table.Partition
import PathRouter.Proofs.Template.Enclosure
import PathRouter.Proofs.Template.Scan
import PathRouter.Proofs.Router.Lookup
import PathRouter.Proofs.Router.Requests
import PathRouter.Proofs.Router.Effects
import PathRouter.Proofs.Matcher.Groups
import PathRouter.Proofs.Matcher.TrailingSlash
import PathRouter.Proofs.Matcher.Encoding
import PathRouter.Proofs.Priority.Representation
