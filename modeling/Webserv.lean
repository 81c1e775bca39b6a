import Webserv.Config.Composition
import Webserv.Config.NulFree
import Webserv.Config.Semicolons
import Webserv.Config.TokenIndices
import Webserv.Request.BodyFraming
import Webserv.Request.ChunkGrammar
import Webserv.Request.HeaderSlice
import Webserv.Request.Invariant
import Webserv.Request.RenderedRequest
import Webserv.Response.CGIEnvironment
import Webserv.Response.CGIOutput
import Webserv.Response.CgiHang
import Webserv.Response.Confinement
import Webserv.Response.ErrorBody
import Webserv.Response.ErrorType
import Webserv.Response.ScriptPath
import Webserv.Server.Directives
import Webserv.Server.Disclosure
import Webserv.Server.FdSetOverflow
import Webserv.Server.Files
import Webserv.Server.Program
import Webserv.Server.SameServer
import Webserv.Server.ServerChoice
import Webserv.Server.StatusCode
